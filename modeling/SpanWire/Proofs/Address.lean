import SpanWire.Address.Text
import SpanWire.Proofs.Text.Digits

/-!
Addresses are read back from their texts, also where zero groups are left out, and no text is one of
both families. Their bytes too tell them apart.
-/
namespace SpanWire

namespace AddressText

theorem readDigits_toDigits {radix limit : Nat} {value? : Char → Option Nat} (hradix : 1 < radix)
    (hvalue : ∀ d < radix, value? d.digitChar = some d) {n : Nat}
    (hlimit : (Nat.toDigits radix n).length ≤ limit) {rest : List Char}
    (hrest : ∀ c ∈ rest.head?, value? c = none) :
    readDigits radix limit value? (Nat.toDigits radix n ++ rest) =
      some (Nat.toDigits radix n, n, rest) := by
  have hdigits : ∀ c ∈ Nat.toDigits radix n, (value? c).isSome = true :=
    Text.forall_mem_toDigits hradix (fun d hd => by rw [hvalue d hd]; rfl) n
  have hstop : ∀ c ∈ rest.head?, (value? c).isSome = false := by
    intro c hc
    rw [hrest c hc]
    rfl
  obtain ⟨htake, hdrop⟩ :=
    Text.takeWhile_append_of_stop (p := fun c => (value? c).isSome) hdigits hstop
  have hfold : (Nat.toDigits radix n).foldl (fun m c => radix * m + (value? c).getD 0) 0 = n :=
    Text.foldl_toDigits hradix (fun c => (value? c).getD 0)
      (fun d hd => by rw [hvalue d hd]; rfl) n
  have hpos : 0 < (Nat.toDigits radix n).length := Nat.length_toDigits_pos
  rw [readDigits, htake, hdrop, hfold, if_neg (by omega)]

theorem decimalValue?_digitChar : ∀ d < 10, decimalValue? d.digitChar = some d := by
  decide

theorem valueAnyCase?_digitChar : ∀ d < 16, Hex.valueAnyCase? d.digitChar = some d := by
  decide

theorem readOctet_toDigits (o : UInt8) {rest : List Char}
    (hrest : ∀ c ∈ rest.head?, decimalValue? c = none) :
    readOctet (Nat.toDigits 10 o.toNat ++ rest) = some (o, rest) := by
  have hlt : o.toNat < 256 := o.toNat_lt
  have hlimit : (Nat.toDigits 10 o.toNat).length ≤ 3 :=
    (Nat.length_toDigits_le_iff (by decide) (by decide)).2 (by omega)
  have hread := readDigits_toDigits (by decide) decimalValue?_digitChar hlimit hrest
  rw [readOctet, hread]
  simp only [Option.bind_eq_bind, Option.bind_some]
  rw [if_neg (Text.toDigits_no_leading_zero (by decide) o.toNat), if_pos hlt, UInt8.ofNat_toNat]

theorem readGroup_toDigits (g : UInt16) {rest : List Char}
    (hrest : ∀ c ∈ rest.head?, Hex.valueAnyCase? c = none) :
    readGroup (Nat.toDigits 16 g.toNat ++ rest) = some (g, rest) := by
  have hlt : g.toNat < 65536 := g.toNat_lt
  have hlimit : (Nat.toDigits 16 g.toNat).length ≤ 4 :=
    (Nat.length_toDigits_le_iff (by decide) (by decide)).2 (by omega)
  have hread := readDigits_toDigits (by decide) valueAnyCase?_digitChar hlimit hrest
  rw [readGroup, hread]
  simp only [Option.bind_eq_bind, Option.bind_some]
  rw [UInt16.ofNat_toNat]
  rfl

theorem decimalValue?_dot (s : List Char) : ∀ c ∈ ('.' :: s).head?, decimalValue? c = none := by
  rintro c ⟨⟩
  rfl

theorem readIPv4_toText (a : IPv4) {rest : List Char}
    (hrest : ∀ c ∈ rest.head?, decimalValue? c = none) :
    readIPv4 (a.toText ++ rest) = some (a, rest) := by
  obtain ⟨octets, hlength⟩ := a
  match octets, hlength with
  | [x, y, z, w], _ =>
    have htext : IPv4.toText ⟨[x, y, z, w], rfl⟩ ++ rest = Nat.toDigits 10 x.toNat ++
        '.' :: (Nat.toDigits 10 y.toNat ++ '.' :: (Nat.toDigits 10 z.toNat ++
          '.' :: (Nat.toDigits 10 w.toNat ++ rest))) := by
      simp [IPv4.toText]
    rw [htext, readIPv4]
    simp only [readOctet_toDigits _ (decimalValue?_dot _), readOctet_toDigits w hrest, expect,
      if_true, Option.bind_eq_bind, Option.bind_some]
    rfl

theorem readIPv4_whole (a : IPv4) : readIPv4 a.toText = some (a, []) := by
  have hread : readIPv4 (a.toText ++ []) = some (a, []) := readIPv4_toText a nofun
  rwa [List.append_nil] at hread

theorem readOctet_rest {s rest : List Char} {o : UInt8} (h : readOctet s = some (o, rest)) :
    ∀ c ∈ rest, c ∈ s := by
  obtain ⟨⟨digits, value, tail⟩, hdigits, h⟩ := Option.bind_eq_some_iff.1 h
  have htail : tail = s.dropWhile fun c => (decimalValue? c).isSome := by
    rw [readDigits] at hdigits
    split at hdigits
    · contradiction
    · simp only [Option.some.injEq, Prod.mk.injEq] at hdigits
      exact hdigits.2.2.symm
  have hrest : rest = tail := by
    dsimp only at h
    split at h
    · contradiction
    · split at h
      · simp only [Option.some.injEq, Prod.mk.injEq] at h
        exact h.2.symm
      · contradiction
  intro c hc
  rw [hrest, htail] at hc
  exact (List.dropWhile_sublist _).mem hc

theorem expect_eq_some {c : Char} {s rest : List Char} (h : expect c s = some rest) :
    s = c :: rest := by
  cases s with
  | nil => contradiction
  | cons d s =>
    rw [expect] at h
    split at h
    · next hd => rw [hd, Option.some.inj h]
    · contradiction

/-- A dotted address has a dot. -/
theorem dot_mem_of_readIPv4 {s : List Char} {r : IPv4 × List Char} (h : readIPv4 s = some r) :
    '.' ∈ s := by
  rw [readIPv4] at h
  obtain ⟨⟨x, rest⟩, hx, h⟩ := Option.bind_eq_some_iff.1 h
  obtain ⟨rest', hdot, -⟩ := Option.bind_eq_some_iff.1 h
  have hrest := expect_eq_some hdot
  exact readOctet_rest hx '.' (hrest ▸ List.mem_cons_self)

theorem readIPv4_of_no_dot {s : List Char} (h : '.' ∉ s) : readIPv4 s = none :=
  Option.eq_none_iff_forall_ne_some.2 fun _ hr => h (dot_mem_of_readIPv4 hr)

theorem readIPv4_colon (s : List Char) : readIPv4 (':' :: s) = none := by
  simp [readIPv4, readOctet, readDigits, decimalValue?]

theorem readGroup_colon (s : List Char) : readGroup (':' :: s) = none := by
  have hcolon : Hex.valueAnyCase? ':' = none := by decide
  simp [readGroup, readDigits, hcolon]

/-- One group, and those behind it. -/
theorem readGroups_step (first : Bool) {limit : Nat} {g : UInt16} {s rest : List Char}
    (hs : (if first then some s else expect ':' s) = some (Nat.toDigits 16 g.toNat ++ rest))
    (hipv4 : readIPv4 (Nat.toDigits 16 g.toNat ++ rest) = none)
    (hrest : ∀ c ∈ rest.head?, Hex.valueAnyCase? c = none) :
    readGroups first (limit + 1) s =
      (g :: (readGroups false limit rest).1, (readGroups false limit rest).2) := by
  rw [readGroups]
  simp only [hs, Option.bind_some, hipv4, ite_self, readGroup_toDigits g hrest]

/-- Groups end with the text or at two colons. -/
def EndsGroups (rest : List Char) : Prop :=
  rest = [] ∨ ∃ s, rest = ':' :: ':' :: s

theorem EndsGroups.head {rest : List Char} (h : EndsGroups rest) :
    ∀ c ∈ rest.head?, Hex.valueAnyCase? c = none := by
  rcases h with rfl | ⟨s, rfl⟩
  · nofun
  · rintro c ⟨⟩
    decide

theorem readGroups_ends (first : Bool) (limit : Nat) {rest : List Char} (h : EndsGroups rest) :
    readGroups first limit rest = ([], false, rest) := by
  cases limit with
  | zero => rw [readGroups]
  | succ limit =>
    rw [readGroups]
    rcases h with rfl | ⟨s, rfl⟩
    · have hipv4 : readIPv4 [] = none := rfl
      have hgroup : readGroup [] = none := rfl
      cases first <;> simp [expect, hipv4, hgroup]
    · cases first <;> simp [expect, readIPv4_colon, readGroup_colon]

def laterGroupsText (gs : List UInt16) : List Char :=
  gs.flatMap fun g => ':' :: Nat.toDigits 16 g.toNat

theorem groupsText_cons (g : UInt16) (gs : List UInt16) :
    IPv6.groupsText (g :: gs) = Nat.toDigits 16 g.toNat ++ laterGroupsText gs :=
  rfl

theorem dot_not_mem_toDigits (n : Nat) : '.' ∉ Nat.toDigits 16 n := fun h =>
  Text.forall_mem_toDigits (p := (· ≠ '.')) (by decide) (by decide) n '.' h rfl

theorem dot_not_mem_laterGroupsText (gs : List UInt16) : '.' ∉ laterGroupsText gs := by
  intro h
  obtain ⟨g, -, hg⟩ := List.mem_flatMap.1 h
  rcases List.mem_cons.1 hg with hdot | hg
  · contradiction
  · exact dot_not_mem_toDigits _ hg

theorem readIPv4_groups (g : UInt16) (gs : List UInt16) {rest : List Char} (hdot : '.' ∉ rest) :
    readIPv4 (Nat.toDigits 16 g.toNat ++ (laterGroupsText gs ++ rest)) = none := by
  apply readIPv4_of_no_dot
  simp only [List.mem_append, not_or]
  exact ⟨dot_not_mem_toDigits _, dot_not_mem_laterGroupsText gs, hdot⟩

theorem laterGroupsText_head (gs : List UInt16) {rest : List Char} (h : EndsGroups rest) :
    ∀ c ∈ (laterGroupsText gs ++ rest).head?, Hex.valueAnyCase? c = none := by
  cases gs with
  | nil => exact h.head
  | cons g gs =>
    rintro c ⟨⟩
    decide

theorem readGroups_later {gs : List UInt16} {limit : Nat} (hlimit : gs.length ≤ limit)
    {rest : List Char} (hends : EndsGroups rest) (hdot : '.' ∉ rest) :
    readGroups false limit (laterGroupsText gs ++ rest) = (gs, false, rest) := by
  induction gs generalizing limit with
  | nil => exact readGroups_ends false limit hends
  | cons g gs ih =>
    cases limit with
    | zero => simp at hlimit
    | succ limit =>
      have hs : (if false = true then some (laterGroupsText (g :: gs) ++ rest)
            else expect ':' (laterGroupsText (g :: gs) ++ rest)) =
          some (Nat.toDigits 16 g.toNat ++ (laterGroupsText gs ++ rest)) := by
        simp [laterGroupsText, expect]
      have hlater := ih (Nat.le_of_succ_le_succ hlimit)
      have hhead := laterGroupsText_head gs hends
      rw [readGroups_step false hs (readIPv4_groups g gs hdot) hhead, hlater]

theorem readGroups_groupsText {gs : List UInt16} {limit : Nat} (hlimit : gs.length ≤ limit)
    {rest : List Char} (hends : EndsGroups rest) (hdot : '.' ∉ rest) :
    readGroups true limit (IPv6.groupsText gs ++ rest) = (gs, false, rest) := by
  cases gs with
  | nil => exact readGroups_ends true limit hends
  | cons g gs =>
    cases limit with
    | zero => simp at hlimit
    | succ limit =>
      have hlater := readGroups_later (Nat.le_of_succ_le_succ hlimit) hends hdot
      have hhead := laterGroupsText_head gs hends
      rw [groupsText_cons, List.append_assoc,
        readGroups_step true rfl (readIPv4_groups g gs hdot) hhead, hlater]

theorem readIPv6_full {s rest : List Char} {gs : List UInt16} {dotted : Bool}
    (h : readGroups true 8 s = (gs, dotted, rest)) (hlength : gs.length = 8) :
    readIPv6 s = some (⟨gs, hlength⟩, rest) := by
  simp [readIPv6, h, hlength]

/-- Two colons stand for as many zero groups as are missing. -/
theorem readIPv6_gap {s s' rest : List Char} {hs ts : List UInt16} {dotted : Bool}
    (hhead : readGroups true 8 s = (hs, false, ':' :: ':' :: s')) (hlength : hs.length < 8)
    (htail : readGroups true (8 - (hs.length + 1)) s' = (ts, dotted, rest)) {a : IPv6}
    (ha : a.groups = hs ++ List.replicate (8 - hs.length - ts.length) 0 ++ ts) :
    readIPv6 s = some (a, rest) := by
  obtain ⟨groups, hgroups⟩ := a
  subst ha
  rw [readIPv6]
  simp only [hhead, htail]
  rw [dif_neg (by omega)]
  rfl

end AddressText

open AddressText

theorem IPv4.ofText?_toString (a : IPv4) : IPv4.ofText? (toString a) = some a := by
  change whole? (readIPv4 (String.ofList a.toText).toList) = _
  rw [String.toList_ofList, readIPv4_whole]
  rfl

theorem IPv4.octets_inj {a b : IPv4} (h : a.octets = b.octets) : a = b := by
  obtain ⟨octets, _⟩ := a
  obtain ⟨octets', _⟩ := b
  cases h
  rfl

namespace IPv6

/-- The run that is found has zeros only. -/
theorem longestZeroRun_spec (start : Nat) (gs : List UInt16) :
    ∃ pre post, gs = pre ++ List.replicate (longestZeroRun start gs).2 0 ++ post ∧
      (longestZeroRun start gs).1 = start + pre.length := by
  induction gs generalizing start with
  | nil => exact ⟨[], [], rfl, rfl⟩
  | cons g gs ih =>
    rw [longestZeroRun]
    split
    · obtain ⟨pre, post, hgs, hstart⟩ := ih (start + 1)
      refine ⟨g :: pre, post, ?_, ?_⟩
      · rw [List.cons_append, List.cons_append, ← hgs]
      · rw [hstart, List.length_cons]
        omega
    · have hzeros : (g :: gs).takeWhile (· = 0) =
          List.replicate ((g :: gs).takeWhile (· = 0)).length 0 := by
        refine List.eq_replicate_iff.2 ⟨rfl, fun b hb => ?_⟩
        have hall := List.all_eq_true.1 List.all_takeWhile b hb
        exact of_decide_eq_true hall
      refine ⟨[], (g :: gs).dropWhile (· = 0), ?_, rfl⟩
      rw [List.nil_append, ← hzeros, List.takeWhile_append_dropWhile]

theorem groups_of_mapped {a : IPv6} {v4 : IPv4} (h : a.mapped? = some v4) :
    ∃ hi lo, a.groups = [0, 0, 0, 0, 0, 0xffff, hi, lo] ∧
      v4.octets = bytesOfGroup hi ++ bytesOfGroup lo := by
  rw [mapped?] at h
  split at h
  · next hi lo hlast =>
    split at h
    · next hfirst =>
      refine ⟨hi, lo, ?_, ?_⟩
      · rw [← List.take_append_drop 6 a.groups, hfirst, hlast]
        rfl
      · rw [← Option.some.inj h]
    · contradiction
  · contradiction

theorem groupOfBytes_bytesOfGroup (g : UInt16) :
    groupOfBytes (UInt8.ofNat (g.toNat / 256)) (UInt8.ofNat (g.toNat % 256)) = g := by
  have hlt : g.toNat < 65536 := g.toNat_lt
  have hhi : (UInt8.ofNat (g.toNat / 256)).toNat = g.toNat / 256 := by
    rw [UInt8.toNat_ofNat']
    omega
  have hlo : (UInt8.ofNat (g.toNat % 256)).toNat = g.toNat % 256 := by
    rw [UInt8.toNat_ofNat']
    omega
  rw [groupOfBytes, hhi, hlo, Nat.div_add_mod, UInt16.ofNat_toNat]

theorem readGroups_dotted {a : IPv4} {hi lo : UInt16}
    (h : a.octets = bytesOfGroup hi ++ bytesOfGroup lo) :
    readGroups false 6 (':' :: a.toText) = ([hi, lo], true, []) := by
  have hread := readIPv4_whole a
  obtain ⟨octets, hlength⟩ := a
  subst h
  rw [readGroups]
  simp only [expect, if_true, Bool.false_eq_true, if_false, Nat.zero_lt_succ, Option.bind_some,
    hread]
  change ([groupOfBytes (UInt8.ofNat (hi.toNat / 256)) (UInt8.ofNat (hi.toNat % 256)),
    groupOfBytes (UInt8.ofNat (lo.toNat / 256)) (UInt8.ofNat (lo.toNat % 256))], true, []) = _
  rw [groupOfBytes_bytesOfGroup, groupOfBytes_bytesOfGroup]

/-- An address that stands for one of IPv4 is written with that as its end. -/
theorem readIPv6_mapped {a : IPv6} {v4 : IPv4} (h : a.mapped? = some v4) :
    readIPv6 ([':', ':', 'f', 'f', 'f', 'f', ':'] ++ v4.toText) = some (a, []) := by
  obtain ⟨hi, lo, hgroups, hoctets⟩ := groups_of_mapped h
  have hhead : readGroups true 8 ([':', ':', 'f', 'f', 'f', 'f', ':'] ++ v4.toText) =
      ([], false, ':' :: ':' :: (['f', 'f', 'f', 'f', ':'] ++ v4.toText)) :=
    readGroups_ends true 8 (.inr ⟨_, rfl⟩)
  have hipv4 : readIPv4 (['f', 'f', 'f', 'f', ':'] ++ v4.toText) = none := by
    simp [readIPv4, readOctet, readDigits, decimalValue?]
  have hcolon : ∀ c ∈ (':' :: v4.toText).head?, Hex.valueAnyCase? c = none := by
    rintro c ⟨⟩
    decide
  have htail : readGroups true 7 (['f', 'f', 'f', 'f', ':'] ++ v4.toText) =
      ([0xffff, hi, lo], true, []) := by
    have htext : ['f', 'f', 'f', 'f', ':'] ++ v4.toText =
        Nat.toDigits 16 (0xffff : UInt16).toNat ++ ':' :: v4.toText := rfl
    rw [htext] at hipv4 ⊢
    rw [readGroups_step true rfl hipv4 hcolon, readGroups_dotted hoctets]
  refine readIPv6_gap hhead (by decide) htail ?_
  rw [hgroups]
  rfl

theorem dot_not_mem_groupsText (gs : List UInt16) : '.' ∉ groupsText gs := by
  cases gs with
  | nil => nofun
  | cons g gs =>
    rw [groupsText_cons, List.mem_append, not_or]
    exact ⟨dot_not_mem_toDigits _, dot_not_mem_laterGroupsText gs⟩

theorem readIPv6_compressed {a : IPv6} {pre post : List UInt16} {length : Nat}
    (hgroups : a.groups = pre ++ List.replicate length 0 ++ post) (h : 2 ≤ length) :
    readIPv6 (groupsText pre ++ [':', ':'] ++ groupsText post) = some (a, []) := by
  have hlength := congrArg List.length hgroups
  simp only [List.length_append, List.length_replicate, a.length_eq] at hlength
  have hdot : '.' ∉ ':' :: ':' :: groupsText post := by
    simp only [List.mem_cons, not_or]
    exact ⟨by decide, by decide, dot_not_mem_groupsText post⟩
  have hhead : readGroups true 8 (groupsText pre ++ ':' :: ':' :: groupsText post) =
      (pre, false, ':' :: ':' :: groupsText post) :=
    readGroups_groupsText (by omega) (.inr ⟨_, rfl⟩) hdot
  have htail : readGroups true (8 - (pre.length + 1)) (groupsText post ++ []) =
      (post, false, []) :=
    readGroups_groupsText (by omega) (.inl rfl) List.not_mem_nil
  rw [List.append_nil] at htail
  rw [List.append_assoc]
  refine readIPv6_gap hhead (by omega) htail ?_
  rw [hgroups]
  congr 3
  omega

theorem readIPv6_toText (a : IPv6) : readIPv6 a.toText = some (a, []) := by
  rw [toText]
  split
  · next v4 h => exact readIPv6_mapped h
  · obtain ⟨pre, post, hgroups, hstart⟩ := longestZeroRun_spec 0 a.groups
    generalize longestZeroRun 0 a.groups = run at hgroups hstart ⊢
    obtain ⟨start, length⟩ := run
    dsimp only at hgroups hstart ⊢
    split
    · next hrun =>
      have htake : a.groups.take start = pre := by
        rw [hgroups, hstart, Nat.zero_add, List.append_assoc, List.take_left]
      have hdrop : a.groups.drop (start + length) = post := by
        rw [hgroups, hstart, Nat.zero_add]
        exact List.drop_left' (by simp)
      rw [htake, hdrop]
      exact readIPv6_compressed hgroups hrun
    · have hread := readGroups_groupsText (Nat.le_of_eq a.length_eq) (.inl rfl) List.not_mem_nil
      rw [List.append_nil] at hread
      exact readIPv6_full hread a.length_eq

theorem ofText?_toString (a : IPv6) : IPv6.ofText? (toString a) = some a := by
  change whole? (readIPv6 (String.ofList a.toText).toList) = _
  rw [String.toList_ofList, readIPv6_toText]
  rfl

theorem bytesOfGroup_inj {g g' : UInt16} (h : bytesOfGroup g = bytesOfGroup g') : g = g' := by
  simp only [bytesOfGroup, List.cons.injEq, and_true] at h
  rw [← groupOfBytes_bytesOfGroup g, h.1, h.2, groupOfBytes_bytesOfGroup]

theorem flatMap_bytesOfGroup_inj {gs gs' : List UInt16}
    (h : gs.flatMap bytesOfGroup = gs'.flatMap bytesOfGroup) : gs = gs' := by
  induction gs generalizing gs' with
  | nil =>
    cases gs' with
    | nil => rfl
    | cons g' gs' => simp [bytesOfGroup] at h
  | cons g gs ih =>
    cases gs' with
    | nil => simp [bytesOfGroup] at h
    | cons g' gs' =>
      rw [List.flatMap_cons, List.flatMap_cons] at h
      obtain ⟨hg, hgs⟩ := List.append_inj h rfl
      rw [bytesOfGroup_inj hg, ih hgs]

theorem octets_inj {a b : IPv6} (h : a.octets = b.octets) : a = b := by
  obtain ⟨gs, _⟩ := a
  obtain ⟨gs', _⟩ := b
  cases flatMap_bytesOfGroup_inj h
  rfl

end IPv6

namespace AddressText

/-- Where a dotted address may stand first, it is taken for two groups that end the others. -/
theorem readGroups_of_readIPv4 (limit : Nat) {s : List Char} {r : IPv4 × List Char}
    (h : readIPv4 s = some r) :
    ∃ gs, readGroups true (limit + 2) s = (gs, true, r.2) ∧ gs.length = 2 := by
  obtain ⟨⟨octets, hlength⟩, rest⟩ := r
  match octets, hlength with
  | [a, b, c, d], _ =>
    refine ⟨[groupOfBytes a b, groupOfBytes c d], ?_, rfl⟩
    rw [readGroups]
    simp only [if_true, Nat.zero_lt_succ, Option.bind_some, h]

theorem readIPv6_of_readIPv4 {s : List Char} {r : IPv4 × List Char} (h : readIPv4 s = some r) :
    readIPv6 s = none := by
  obtain ⟨gs, hhead, hlength⟩ := readGroups_of_readIPv4 6 h
  have hshort : gs.length ≠ 8 := by omega
  rw [readIPv6]
  simp [hhead, hshort]

end AddressText

/-- What starts with an IPv4 address is no IPv6 address. -/
theorem IPv6.ofText?_of_readIPv4 {s : String} {r : IPv4 × List Char}
    (h : readIPv4 s.toList = some r) : IPv6.ofText? s = none := by
  rw [IPv6.ofText?, readIPv6_of_readIPv4 h]
  rfl

/-- No text is an address of both families. -/
theorem IPv6.ofText?_of_ipv4 {s : String} {a : IPv4} (h : IPv4.ofText? s = some a) :
    IPv6.ofText? s = none := by
  unfold IPv4.ofText? whole? at h
  split at h
  · next hread => exact ofText?_of_readIPv4 hread
  · contradiction

/-- A text is an address if it is one of either family. -/
theorem Address.ofText?_eq (s : String) :
    Address.ofText? s = ((IPv4.ofText? s).map .v4).or ((IPv6.ofText? s).map .v6) := by
  unfold Address.ofText? IPv4.ofText?
  cases hread : readIPv4 s.toList with
  | none => rfl
  | some r =>
    obtain ⟨a, rest⟩ := r
    rw [IPv6.ofText?_of_readIPv4 hread]
    cases rest <;> rfl

theorem Address.ofText?_ipv4 (a : IPv4) : Address.ofText? (toString a) = some (.v4 a) := by
  rw [Address.ofText?_eq, IPv4.ofText?_toString]
  rfl

theorem Address.ofText?_ipv6 (a : IPv6) : Address.ofText? (toString a) = some (.v6 a) := by
  have hv4 : IPv4.ofText? (toString a) = none := by
    cases h : IPv4.ofText? (toString a) with
    | none => rfl
    | some b =>
      have hnone := IPv6.ofText?_of_ipv4 h
      rw [IPv6.ofText?_toString] at hnone
      contradiction
  rw [Address.ofText?_eq, hv4, IPv6.ofText?_toString]
  rfl

end SpanWire
