import Mathlib.Data.List.Nodup
import SpanWire.Proofs.Json.Object
import SpanWire.Proofs.Json.Schema

/-!
Records read from the members of an object. The members are gone through from the left, and the
first one that offends decides. Without such a member the record does not depend on their order, nor
on members of which the record knows nothing.
-/
namespace SpanWire.Json

open Progress

namespace Schema

section Laws

variable (σ : Schema)

/-- A member of a field that was given before, or whose value is not taken. A repeated key is told
before the value is looked at. -/
inductive Offends (before : List (String × String)) : String × String → Problem → Prop
  | repeated {f : σ.Field} {value : String} (h : σ.key f ∈ before.map Prod.fst) :
    Offends before (σ.key f, value) (.data (.duplicateField (σ.key f)))
  | refused {f : σ.Field} {value : String} {e : Problem} (hnew : σ.key f ∉ before.map Prod.fst)
    (h : readDocument (σ.read f) value = .error e) : Offends before (σ.key f, value) e

/-- No field is given twice, and what is given for each is taken. -/
structure Fine (ms : List (String × String)) : Prop where
  once : ∀ f, (ms.map Prod.fst).count (σ.key f) ≤ 1
  accepted : ∀ f value, (σ.key f, value) ∈ ms → ∃ a, readDocument (σ.read f) value = .ok a

/-- The members give a record: no field is given twice, what is given for a field is read as its
value, and the others have the values of their absence. -/
structure Gives (ms : List (String × String)) (r : σ.Record) : Prop where
  once : ∀ f, (ms.map Prod.fst).count (σ.key f) ≤ 1
  given : ∀ f value, (σ.key f, value) ∈ ms → readDocument (σ.read f) value = .ok (r f)
  absent : ∀ f, σ.key f ∉ ms.map Prod.fst → σ.absent f = some (r f)

/-- The problem of members that give no record: that of the first one that offends, and if there
is none, that the first of the required fields without a member is missing. -/
inductive Refuses (ms : List (String × String)) : Problem → Prop
  | member {before after : List (String × String)} {m : String × String} {e : Problem}
    (hms : ms = before ++ m :: after) (hbefore : σ.Fine before) (hm : σ.Offends before m e) :
    Refuses ms e.within
  | missing {before after : List σ.Field} {f : σ.Field} (hms : σ.Fine ms)
    (hfields : σ.fields = before ++ f :: after)
    (hbefore : ∀ g ∈ before, σ.absent g = none → σ.key g ∈ ms.map Prod.fst)
    (hrequired : σ.absent f = none) (hf : σ.key f ∉ ms.map Prod.fst) :
    Refuses ms (.data (.missingField (σ.key f)))

/-- The members whose keys are those of fields. -/
def known (ms : List (String × String)) : List (String × String) :=
  ms.filter fun m => m.1 ∈ σ.fields.map σ.key

/-- The fields that were read from the members so far. -/
def Holds (ms : List (String × String)) (p : σ.Partial) : Prop :=
  ∀ f a, p f = some a ↔ ∃ value, (σ.key f, value) ∈ ms ∧ readDocument (σ.read f) value = .ok a

end Laws

variable {σ : Schema} {ms before : List (String × String)} {m : String × String}
  {p : σ.Partial} {r : σ.Record}

theorem fine_nil : σ.Fine [] :=
  ⟨fun _ => Nat.zero_le 1, nofun⟩

theorem holds_nil : σ.Holds [] .empty :=
  fun _ _ => ⟨nofun, nofun⟩

theorem Gives.fine (h : σ.Gives ms r) : σ.Fine ms :=
  ⟨h.once, fun f value hm => ⟨r f, h.given f value hm⟩⟩

/-- Members without a problem do not offend. -/
theorem Fine.not_offends {after : List (String × String)} {e : Problem}
    (h : σ.Fine (before ++ m :: after)) : ¬ σ.Offends before m e := by
  rintro (⟨hrepeated⟩ | ⟨-, hrefused⟩)
  · next f value =>
    have honce := h.once f
    have hcount : 0 < (before.map Prod.fst).count (σ.key f) := List.count_pos_iff.2 hrepeated
    simp only [List.map_append, List.count_append, List.map_cons, List.count_cons_self] at honce
    omega
  · next f value =>
    have hmem : (σ.key f, value) ∈ before ++ (σ.key f, value) :: after :=
      List.mem_append_right before List.mem_cons_self
    obtain ⟨a, ha⟩ := h.accepted f value hmem
    rw [ha] at hrefused
    contradiction

theorem Offends.inversion {e : Problem} (h : σ.Offends before m e) :
    ∃ f, σ.key f = m.1 ∧
      ((m.1 ∈ before.map Prod.fst ∧ e = .data (.duplicateField m.1)) ∨
        (m.1 ∉ before.map Prod.fst ∧ readDocument (σ.read f) m.2 = .error e)) := by
  cases h with
  | @repeated f value hrepeated => exact ⟨f, rfl, .inl ⟨hrepeated, rfl⟩⟩
  | @refused f value e hnew hrefused => exact ⟨f, rfl, .inr ⟨hnew, hrefused⟩⟩

theorem fine_unknown (h : σ.Fine before) (hm : ∀ f, σ.key f ≠ m.1) : σ.Fine (before ++ [m]) where
  once f := by
    have honce := h.once f
    have hnone : [m.1].count (σ.key f) = 0 :=
      List.count_eq_zero.2 fun hmem => hm f (List.mem_singleton.1 hmem)
    rw [List.map_append, List.count_append, List.map_singleton, hnone]
    exact honce
  accepted f value hmem := by
    rcases List.mem_append.1 hmem with hmem | hmem
    · exact h.accepted f value hmem
    · exact absurd (congrArg Prod.fst (List.mem_singleton.1 hmem)) (hm f)

theorem holds_unknown (hp : σ.Holds before p) (hm : ∀ f, σ.key f ≠ m.1) :
    σ.Holds (before ++ [m]) p := by
  intro f a
  rw [hp f a]
  refine exists_congr fun value => and_congr_left fun _ => ?_
  have hne : (σ.key f, value) ≠ m := fun heq => hm f (congrArg Prod.fst heq)
  rw [List.mem_append, List.mem_singleton, or_iff_left hne]

theorem fieldOf?_eq_none {key : String} (h : ∀ f, σ.key f ≠ key) : σ.fieldOf? key = none := by
  rw [fieldOf?, List.find?_eq_none]
  intro f _
  rw [decide_eq_true_eq]
  exact h f

theorem readKey_ok_of_readMembers {xs : List (Option Token × Draft)} {q : σ.Partial}
    (h : σ.readMembers p xs = .ok q) : ∀ x ∈ xs, ∃ key, readKey x.1 = .ok key := by
  induction xs generalizing p with
  | nil => nofun
  | cons x xs ih =>
    obtain ⟨k, d⟩ := x
    rw [readMembers] at h
    obtain ⟨key, hkey, h⟩ := bind_eq_ok.1 h
    refine List.forall_mem_cons.2 ⟨⟨key, hkey⟩, ?_⟩
    split at h
    · split at h
      · contradiction
      · obtain ⟨a, -, h⟩ := bind_eq_ok.1 h
        exact ih h
    · split at h
      · contradiction
      · obtain ⟨u, -, h⟩ := bind_eq_ok.1 h
        exact ih h

theorem Holds.eq_none (hp : σ.Holds ms p) {f : σ.Field} (hf : σ.key f ∉ ms.map Prod.fst) :
    p f = none := by
  cases hpf : p f with
  | none => rfl
  | some a =>
    obtain ⟨value, hm, -⟩ := (hp f a).1 hpf
    exact absurd (List.mem_map_of_mem hm) hf

theorem Holds.exists_some (hp : σ.Holds ms p) (hms : σ.Fine ms) {f : σ.Field}
    (hf : σ.key f ∈ ms.map Prod.fst) :
    ∃ value a, (σ.key f, value) ∈ ms ∧ readDocument (σ.read f) value = .ok a ∧ p f = some a := by
  obtain ⟨⟨key, value⟩, hm, rfl⟩ := List.mem_map.1 hf
  obtain ⟨a, ha⟩ := hms.accepted f value hm
  exact ⟨value, a, hm, ha, (hp f a).2 ⟨value, hm, ha⟩⟩

/-- Without members that stop it a record is only refused for a field that is missing. -/
theorem fill_eq_error {e : Problem} (h : σ.fill p = .error e) :
    ∃ f, σ.fields.find? (σ.isMissing p) = some f ∧ e = .data (.missingField (σ.key f)) := by
  unfold fill at h
  split at h
  · next f hf => exact ⟨f, hf, (Except.error.inj h).symm⟩
  · contradiction

theorem fill_of_missing {f : σ.Field} (h : σ.fields.find? (σ.isMissing p) = some f) :
    σ.fill p = .error (.data (.missingField (σ.key f))) := by
  unfold fill
  split
  · next g hg =>
    obtain rfl : f = g := Option.some.inj (h.symm.trans hg)
    rfl
  · next hnone =>
    rw [h] at hnone
    contradiction

/-- A field is missing exactly if it is required and no member is there for it. -/
theorem isMissing_iff (hp : σ.Holds ms p) (hms : σ.Fine ms) (f : σ.Field) :
    σ.isMissing p f = true ↔ σ.absent f = none ∧ σ.key f ∉ ms.map Prod.fst := by
  have hpf : p f = none ↔ σ.key f ∉ ms.map Prod.fst := by
    constructor
    · intro hnone hmem
      obtain ⟨value, a, -, -, hsome⟩ := hp.exists_some hms hmem
      rw [hnone] at hsome
      contradiction
    · exact hp.eq_none
  rw [isMissing, Option.isNone_iff_eq_none, Option.or_eq_none_iff, hpf, and_comm]

/-- With all members taken, the record is filled in as they give it. -/
theorem fill_eq_ok (hp : σ.Holds ms p) (hms : σ.Fine ms) : σ.fill p = .ok r ↔ σ.Gives ms r := by
  constructor
  · intro hfill
    have hrecord := fill_ok hfill
    refine ⟨hms.once, fun f value hm => ?_, fun f hf => ?_⟩
    · obtain ⟨a, ha⟩ := hms.accepted f value hm
      have hvalue := hrecord f
      rw [(hp f a).2 ⟨value, hm, ha⟩, Option.some_or, Option.some.injEq] at hvalue
      rw [ha, hvalue]
    · have habsent := hrecord f
      rwa [hp.eq_none hf, Option.none_or] at habsent
  · intro hgives
    refine fill_eq fun f => ?_
    by_cases hmem : σ.key f ∈ ms.map Prod.fst
    · obtain ⟨value, a, hm, ha, hsome⟩ := hp.exists_some hms hmem
      obtain rfl : r f = a := Except.ok.inj ((hgives.given f value hm).symm.trans ha)
      rw [hsome, Option.some_or]
    · rw [hp.eq_none hmem, Option.none_or]
      exact hgives.absent f hmem

/-- With all members taken, the record is refused for the first field that is missing. -/
theorem fill_refuses {e : Problem} (hp : σ.Holds ms p) (hms : σ.Fine ms) :
    (σ.fill p).mapError Problem.within = .error e ↔ σ.Refuses ms e := by
  have hmissing := isMissing_iff hp hms
  rw [mapError_eq_error]
  constructor
  · rintro ⟨e, hfill, rfl⟩
    obtain ⟨f, hf, rfl⟩ := fill_eq_error hfill
    obtain ⟨hf, before, after, hfields, hbefore⟩ := List.find?_eq_some_iff_append.1 hf
    obtain ⟨hrequired, hfree⟩ := (hmissing f).1 hf
    refine .missing hms hfields (fun g hg hnone => ?_) hrequired hfree
    by_contra hmem
    have hg' := hbefore g hg
    rw [(hmissing g).2 ⟨hnone, hmem⟩] at hg'
    contradiction
  · intro hrefuses
    cases hrefuses with
    | member hsplit _ hm =>
      subst hsplit
      exact absurd hm hms.not_offends
    | @missing before after f _ hfields hbefore hrequired hfree =>
      have hf : σ.fields.find? (σ.isMissing p) = some f := by
        refine List.find?_eq_some_iff_append.2
          ⟨(hmissing f).2 ⟨hrequired, hfree⟩, before, after, hfields, fun g hg => ?_⟩
        rw [Bool.not_eq_true', ← Bool.not_eq_true, hmissing g]
        exact fun hg' => hg'.2 (hbefore g hg hg'.1)
      exact ⟨_, fill_of_missing hf, rfl⟩

section Keys

variable (hkeys : (σ.fields.map σ.key).Nodup)

include hkeys

theorem key_injective {f g : σ.Field} (h : σ.key f = σ.key g) : f = g :=
  List.inj_on_of_nodup_map hkeys (σ.complete f) (σ.complete g) h

theorem Offends.unique {e e' : Problem} (h : σ.Offends before m e) (h' : σ.Offends before m e') :
    e = e' := by
  obtain ⟨f, hf, hcases⟩ := h.inversion
  obtain ⟨g, hg, hcases'⟩ := h'.inversion
  obtain rfl : f = g := key_injective hkeys (hf.trans hg.symm)
  rcases hcases with ⟨hrepeated, rfl⟩ | ⟨hnew, hrefused⟩ <;>
    rcases hcases' with ⟨hrepeated', rfl⟩ | ⟨hnew', hrefused'⟩
  · rfl
  · exact absurd hrepeated hnew'
  · exact absurd hrepeated' hnew
  · exact Except.error.inj (hrefused.symm.trans hrefused')

/-- There is only one first member that offends. -/
theorem first_unique {front back front' back' : List (String × String)} {m' : String × String}
    {e e' : Problem} (hsplit : front ++ m :: back = front' ++ m' :: back')
    (hfront : σ.Fine front) (hm : σ.Offends front m e) (hfront' : σ.Fine front')
    (hm' : σ.Offends front' m' e') : e = e' := by
  rcases List.append_eq_append_iff.1 hsplit with ⟨mid, rfl, htail⟩ | ⟨mid, rfl, htail⟩
  · cases mid with
    | nil =>
      obtain ⟨rfl, -⟩ := List.cons.inj htail
      rw [List.append_nil] at hm'
      exact hm.unique hkeys hm'
    | cons n mid =>
      obtain ⟨rfl, -⟩ := List.cons.inj htail
      exact absurd hm hfront'.not_offends
  · cases mid with
    | nil =>
      obtain ⟨rfl, -⟩ := List.cons.inj htail
      rw [List.append_nil] at hm
      exact hm.unique hkeys hm'
    | cons n mid =>
      obtain ⟨rfl, -⟩ := List.cons.inj htail
      exact absurd hm' hfront.not_offends

theorem fine_known {f : σ.Field} {value : String} {a : σ.Value f} (h : σ.Fine before)
    (hnew : σ.key f ∉ before.map Prod.fst) (ha : readDocument (σ.read f) value = .ok a) :
    σ.Fine (before ++ [(σ.key f, value)]) where
  once g := by
    have honce := h.once g
    rw [List.map_append, List.count_append, List.map_singleton]
    by_cases heq : f = g
    · subst heq
      have hnone : (before.map Prod.fst).count (σ.key f) = 0 := List.count_eq_zero.2 hnew
      exact Nat.add_le_add (Nat.le_of_eq hnone) (Nat.le_of_eq List.count_singleton_self)
    · have hne : [σ.key f].count (σ.key g) = 0 :=
        List.count_eq_zero.2 fun hmem => heq (key_injective hkeys (List.mem_singleton.1 hmem)).symm
      rw [hne]
      exact honce
  accepted g w hmem := by
    rcases List.mem_append.1 hmem with hmem | hmem
    · exact h.accepted g w hmem
    · obtain ⟨hkey, rfl⟩ := Prod.mk.inj (List.mem_singleton.1 hmem)
      obtain rfl : g = f := key_injective hkeys hkey
      exact ⟨a, ha⟩

theorem holds_known {f : σ.Field} {value : String} {a : σ.Value f} (hp : σ.Holds before p)
    (hnew : σ.key f ∉ before.map Prod.fst) (ha : readDocument (σ.read f) value = .ok a) :
    σ.Holds (before ++ [(σ.key f, value)]) (p.set f a) := by
  intro g b
  by_cases heq : f = g
  · subst heq
    rw [Partial.set_self, Option.some.injEq]
    constructor
    · rintro rfl
      exact ⟨value, List.mem_append_right before (List.mem_singleton_self _), ha⟩
    · rintro ⟨w, hmem, hb⟩
      rcases List.mem_append.1 hmem with hmem | hmem
      · exact absurd (List.mem_map_of_mem hmem) hnew
      · obtain ⟨-, rfl⟩ := Prod.mk.inj (List.mem_singleton.1 hmem)
        exact Except.ok.inj (ha.symm.trans hb)
  · rw [Partial.set_of_ne p a heq, hp g b]
    refine exists_congr fun w => and_congr_left fun _ => ?_
    have hne : (σ.key g, w) ≠ (σ.key f, value) := fun hpair =>
      heq (key_injective hkeys (Prod.mk.inj hpair).1).symm
    rw [List.mem_append, List.mem_singleton, or_iff_left hne]

section Open

variable (hopen : σ.closed = false)

include hopen

/-- A member either offends or is taken, and what was read so far goes on to hold. -/
theorem readMembers_step {x : Option Token × Draft} (hx : MemberReads m x)
    (hfine : σ.Fine before) (hp : σ.Holds before p) :
    (∃ q, σ.Fine (before ++ [m]) ∧ σ.Holds (before ++ [m]) q ∧
      ∀ xs, σ.readMembers p (x :: xs) = σ.readMembers q xs) ∨
    ∃ e, σ.Offends before m e ∧ ∀ xs, σ.readMembers p (x :: xs) = .error e := by
  obtain ⟨key, value⟩ := m
  obtain ⟨k, d⟩ := x
  have hkey : readKey k = .ok key := hx.key
  by_cases hknown : ∃ f, σ.key f = key
  · obtain ⟨f, rfl⟩ := hknown
    have hvalue : readDocument (σ.read f) value = σ.read f d :=
      readDocument_of_readsAs (σ.read f) hx.value
    by_cases hrepeated : σ.key f ∈ before.map Prod.fst
    · refine .inr ⟨_, .repeated hrepeated, fun xs => ?_⟩
      obtain ⟨w, b, -, -, hsome⟩ := hp.exists_some hfine hrepeated
      simp only [readMembers, hkey, bind, Except.bind, fieldOf?_key hkeys, hsome,
        Option.isSome_some, if_true]
    · have hnone : p f = none := hp.eq_none hrepeated
      cases hread : readDocument (σ.read f) value with
      | ok a =>
        refine .inl ⟨p.set f a, fine_known hkeys hfine hrepeated hread,
          holds_known hkeys hp hrepeated hread, fun xs => ?_⟩
        simp only [readMembers, hkey, bind, Except.bind, fieldOf?_key hkeys, hnone, ← hvalue,
          hread, Option.isSome_none, Bool.false_eq_true, if_false]
      | error e =>
        refine .inr ⟨e, .refused hrepeated hread, fun xs => ?_⟩
        simp only [readMembers, hkey, bind, Except.bind, fieldOf?_key hkeys, hnone, ← hvalue,
          hread, Option.isSome_none, Bool.false_eq_true, if_false]
  · have hnone : ∀ f, σ.key f ≠ key := fun f hf => hknown ⟨f, hf⟩
    have hskip : skip d = .ok () := by
      rw [← readDocument_of_readsAs skip hx.value]
      exact wellFormed_iff.2 ⟨d, hx.value⟩
    refine .inl ⟨p, fine_unknown hfine hnone, holds_unknown hp hnone, fun xs => ?_⟩
    simp only [readMembers, hkey, bind, Except.bind, fieldOf?_eq_none hnone, hopen,
      Bool.false_eq_true, if_false, hskip]

/-- The members go through up to the first one that offends. -/
theorem readMembers_run {xs : List (Option Token × Draft)} (h : List.Forall₂ MemberReads ms xs)
    (hfine : σ.Fine before) (hp : σ.Holds before p) :
    (∃ q, σ.Fine (before ++ ms) ∧ σ.Holds (before ++ ms) q ∧ σ.readMembers p xs = .ok q) ∨
    ∃ front m back e, ms = front ++ m :: back ∧ σ.Fine (before ++ front) ∧
      σ.Offends (before ++ front) m e ∧ σ.readMembers p xs = .error e := by
  induction h generalizing before p with
  | nil =>
    refine .inl ⟨p, ?_, ?_, rfl⟩
    · rwa [List.append_nil]
    · rwa [List.append_nil]
  | @cons m x ms xs hx _ ih =>
    rcases readMembers_step hkeys hopen hx hfine hp with ⟨q, hfine', hq, hstep⟩ | ⟨e, he, hstep⟩
    · have hshift (rest : List (String × String)) :
          before ++ [m] ++ rest = before ++ m :: rest := by
        rw [List.append_assoc, List.singleton_append]
      have hrest := ih hfine' hq
      rw [← hstep, hshift] at hrest
      rcases hrest with htaken | ⟨front, n, back, e, rfl, hfront, hn, hread⟩
      · exact .inl htaken
      · rw [hshift] at hfront hn
        exact .inr ⟨m :: front, n, back, e, rfl, hfront, hn, hread⟩
    · refine .inr ⟨[], m, ms, e, rfl, ?_, ?_, hstep xs⟩
      · rwa [List.append_nil]
      · rwa [List.append_nil]

/-- The members of an object are read as the records they give. -/
theorem readRecord_eq_ok {xs : List (Option Token × Draft)}
    (h : List.Forall₂ MemberReads ms xs) :
    σ.readRecord (.object xs none) = .ok r ↔ σ.Gives ms r := by
  have hrun := readMembers_run hkeys hopen h fine_nil holds_nil
  rw [List.nil_append] at hrun
  rw [readRecord, mapError_eq_ok, readFields]
  rcases hrun with ⟨q, hfine, hholds, hq⟩ | ⟨front, m, back, e, rfl, -, hm, hq⟩
  · simp only [hq, bind, Except.bind, failOn]
    exact fill_eq_ok hholds hfine
  · simp only [hq, bind, Except.bind]
    exact iff_of_false (fun herror => by contradiction) fun hgives => hgives.fine.not_offends hm

/-- The members of an object are refused for their problem. -/
theorem readRecord_eq_error {xs : List (Option Token × Draft)} {e : Problem}
    (h : List.Forall₂ MemberReads ms xs) :
    σ.readRecord (.object xs none) = .error e ↔ σ.Refuses ms e := by
  have hrun := readMembers_run hkeys hopen h fine_nil holds_nil
  rw [List.nil_append] at hrun
  rw [readRecord, readFields]
  rcases hrun with ⟨q, hfine, hholds, hq⟩ | ⟨front, m, back, e', rfl, hfront, hm, hq⟩
  · simp only [hq, bind, Except.bind, failOn]
    exact fill_refuses hholds hfine
  · simp only [hq, bind, Except.bind]
    rw [mapError_eq_error]
    constructor
    · rintro ⟨e, he, rfl⟩
      obtain rfl := Except.error.inj he
      exact .member rfl hfront hm
    · intro hrefuses
      cases hrefuses with
      | member hms hbefore hm' =>
        have heq := first_unique hkeys hms hfront hm hbefore hm'
        exact ⟨e', rfl, congrArg Problem.within heq⟩
      | missing hms => exact absurd hm hms.not_offends

end Open

end Keys

theorem count_known (f : σ.Field) (ms : List (String × String)) :
    ((σ.known ms).map Prod.fst).count (σ.key f) = (ms.map Prod.fst).count (σ.key f) := by
  have hmem : σ.key f ∈ σ.fields.map σ.key := List.mem_map_of_mem (σ.complete f)
  simp only [List.count, List.countP_map, known, List.countP_filter]
  refine List.countP_congr fun m _ => ?_
  simp only [Function.comp, Bool.and_eq_true, beq_iff_eq, decide_eq_true_eq]
  exact and_iff_left_of_imp fun hkey => hkey ▸ hmem

theorem mem_known {f : σ.Field} {value : String} :
    (σ.key f, value) ∈ σ.known ms ↔ (σ.key f, value) ∈ ms := by
  have hmem : σ.key f ∈ σ.fields.map σ.key := List.mem_map_of_mem (σ.complete f)
  rw [known, List.mem_filter]
  exact and_iff_left (decide_eq_true hmem)

/-- What the members give depends neither on their order nor on those with other keys. -/
theorem gives_congr {ms' : List (String × String)} (h : (σ.known ms).Perm (σ.known ms')) :
    σ.Gives ms r ↔ σ.Gives ms' r := by
  have hcount (f : σ.Field) :
      (ms.map Prod.fst).count (σ.key f) = (ms'.map Prod.fst).count (σ.key f) := by
    rw [← count_known f ms, ← count_known f ms']
    exact (h.map Prod.fst).count_eq _
  have hmem (f : σ.Field) (value : String) : (σ.key f, value) ∈ ms ↔ (σ.key f, value) ∈ ms' := by
    exact mem_known.symm.trans (h.mem_iff.trans mem_known)
  have hkey (f : σ.Field) : σ.key f ∈ ms.map Prod.fst ↔ σ.key f ∈ ms'.map Prod.fst := by
    rw [← List.count_pos_iff, hcount f, List.count_pos_iff]
  constructor
  · intro hgives
    exact ⟨fun f => hcount f ▸ hgives.once f,
      fun f value hm => hgives.given f value ((hmem f value).2 hm),
      fun f hf => hgives.absent f fun hm => hf ((hkey f).1 hm)⟩
  · intro hgives
    exact ⟨fun f => (hcount f).symm ▸ hgives.once f,
      fun f value hm => hgives.given f value ((hmem f value).1 hm),
      fun f hf => hgives.absent f fun hm => hf ((hkey f).2 hm)⟩

/-- A member for a field that had none changes this field only. -/
theorem Gives.cons (hkeys : (σ.fields.map σ.key).Nodup) {r' : σ.Record} {f : σ.Field}
    {value : String} (h : σ.Gives ms r) (hnew : σ.key f ∉ ms.map Prod.fst)
    (hvalue : readDocument (σ.read f) value = .ok (r' f)) (hothers : ∀ g, g ≠ f → r' g = r g) :
    σ.Gives ((σ.key f, value) :: ms) r' where
  once g := by
    rw [List.map_cons]
    by_cases heq : σ.key f = σ.key g
    · have hnone : (ms.map Prod.fst).count (σ.key g) = 0 := heq ▸ List.count_eq_zero.2 hnew
      rw [heq, List.count_cons_self]
      omega
    · rw [List.count_cons_of_ne heq]
      exact h.once g
  given g w hmem := by
    rcases List.mem_cons.1 hmem with heq | hmem
    · obtain ⟨hkey, rfl⟩ := Prod.mk.inj heq
      rwa [key_injective hkeys hkey]
    · have hne : g ≠ f := by
        intro heq
        exact hnew (heq ▸ List.mem_map_of_mem hmem)
      rw [hothers g hne]
      exact h.given g w hmem
  absent g hg := by
    rw [List.map_cons, List.mem_cons, not_or] at hg
    rw [hothers g fun heq => hg.1 (congrArg σ.key heq)]
    exact h.absent g hg.2

/-- A member on its own gives its field, and leaves the others as they are in their absence. -/
theorem gives_single (hkeys : (σ.fields.map σ.key).Nodup) {f : σ.Field} {value : String}
    {blank : σ.Record} (hblank : ∀ g, σ.absent g = some (blank g)) :
    σ.Gives [(σ.key f, value)] r ↔
      readDocument (σ.read f) value = .ok (r f) ∧ ∀ g, g ≠ f → r g = blank g := by
  constructor
  · intro h
    refine ⟨h.given f value List.mem_cons_self, fun g hg => ?_⟩
    have hother : σ.key g ∉ [(σ.key f, value)].map Prod.fst := by
      intro hmem
      exact hg (key_injective hkeys (List.mem_singleton.1 hmem))
    have habsent := h.absent g hother
    rw [hblank g] at habsent
    exact (Option.some.inj habsent).symm
  · rintro ⟨hvalue, hothers⟩
    have hnone : σ.Gives [] blank := ⟨fun _ => Nat.zero_le 1, nofun, fun g _ => hblank g⟩
    exact hnone.cons hkeys List.not_mem_nil hvalue hothers

end Schema

/-- The first character that is no blank opens an object. -/
def OpensObject (text : List Char) : Prop :=
  ∃ lead rest, text = lead ++ '{' :: rest ∧ IsBlank lead

/-- A reader takes the objects whose members give a record, and makes its value of that record. -/
structure ReadsObjects {α : Type} (read : Reader α) (σ : Schema) (build : σ.Record → α) :
    Prop where
  /-- A text with an object is taken as the value it gives. Of the members that are not known, the
  values only have to be well-formed. -/
  takes : ∀ (text : String) (a : α), OpensObject text.toList →
    (readDocument read text = .ok a ↔
      ∃ ms r, ObjectText text.toList ms ∧
        (∀ m ∈ ms, (∀ f, σ.key f ≠ m.1) → WellFormed m.2) ∧ σ.Gives ms r ∧ build r = a)
  /-- Where all values are well-formed, the members alone decide. -/
  gives : ∀ (text : String) (ms : List (String × String)) (a : α), ObjectText text.toList ms →
    (∀ m ∈ ms, WellFormed m.2) →
      (readDocument read text = .ok a ↔ ∃ r, σ.Gives ms r ∧ build r = a)
  refuses : ∀ (text : String) (ms : List (String × String)) (e : Problem),
    ObjectText text.toList ms → (∀ m ∈ ms, WellFormed m.2) →
      (readDocument read text = .error e ↔ σ.Refuses ms e)
  /-- Members may stand in any order, and others may be put among them. -/
  alike : ∀ (text text' : String) (ms ms' : List (String × String)) (a : α),
    ObjectText text.toList ms → ObjectText text'.toList ms' → (∀ m ∈ ms, WellFormed m.2) →
      (∀ m ∈ ms', WellFormed m.2) → (σ.known ms).Perm (σ.known ms') →
        (readDocument read text = .ok a ↔ readDocument read text' = .ok a)

theorem OpensObject.scanAll {s : List Char} (h : OpensObject s) :
    ∃ ts, Token.scanAll [] s = .openObject :: ts := by
  obtain ⟨lead, rest, rfl, hlead⟩ := h
  have hscan := Token.scan_mark (c := '{') rfl rest
  exact ⟨_, (hlead.scanAll_append _).trans (Token.scanAll_token (by decide) hscan rfl)⟩

namespace Schema

variable {σ : Schema} {α : Type}

/-- What is read as a record from the text of an object is an object. -/
theorem object_of_readRecord {s : List Char} {d : Draft} {r : σ.Record} (hs : OpensObject s)
    (htext : ReadsAs s d) (h : σ.readRecord d = .ok r) : ∃ xs, d = .object xs none := by
  have hwhole := readsWhole_record σ d r h
  have hfields : σ.readFields d = .ok r := mapError_eq_ok.1 h
  obtain ⟨ts, htokens⟩ := hs.scanAll
  cases d with
  | leaf t => exact absurd hfields (wrongType_ne_ok _ _ r)
  | array items cut =>
    obtain rfl : cut = none := hwhole
    obtain ⟨us, harray, -⟩ := openArray_of_readsAs htext
    rw [htokens] at harray
    cases harray
  | object xs cut =>
    obtain rfl : cut = none := hwhole
    exact ⟨xs, rfl⟩

theorem readsObjects (hkeys : (σ.fields.map σ.key).Nodup) (hopen : σ.closed = false)
    (hfields : ∀ f, ReadsWhole (σ.read f)) (build : σ.Record → α) :
    ReadsObjects (fun d => (σ.readRecord d).map build) σ build := by
  have hgives (text : String) (ms : List (String × String)) (a : α)
      (htext : ObjectText text.toList ms) (hvalues : ∀ m ∈ ms, WellFormed m.2) :
      readDocument (fun d => (σ.readRecord d).map build) text = .ok a ↔
        ∃ r, σ.Gives ms r ∧ build r = a := by
    obtain ⟨xs, hxs, hmembers⟩ := htext.readsAs hvalues
    rw [readDocument_of_readsAs _ hxs, map_eq_ok]
    exact exists_congr fun r => and_congr_left fun _ => readRecord_eq_ok hkeys hopen hmembers
  refine ⟨fun text a hopens => ?takes, hgives, fun text ms e htext hvalues => ?refuses,
    fun text text' ms ms' a htext htext' hvalues hvalues' hperm => ?alike⟩
  case takes =>
    constructor
    · intro h
      obtain ⟨d, htext, hd⟩ := (readDocument_eq_ok ((readsWhole_record σ).map build)).1 h
      obtain ⟨r, hr, rfl⟩ := map_eq_ok.1 hd
      obtain ⟨xs, rfl⟩ := object_of_readRecord hopens htext hr
      have hread : σ.readFields (.object xs none) = .ok r := mapError_eq_ok.1 hr
      obtain ⟨q, hq, -⟩ := bind_eq_ok.1 hread
      obtain ⟨ms, hobject, hmembers⟩ :=
        objectText_of_readsAs htext (readKey_ok_of_readMembers hq)
      have hvalues := wellFormed_of_memberReads hmembers
      exact ⟨ms, r, hobject, fun m hm _ => hvalues m hm,
        (readRecord_eq_ok hkeys hopen hmembers).1 hr, rfl⟩
    · rintro ⟨ms, r, htext, hothers, hr, rfl⟩
      have hvalues : ∀ m ∈ ms, WellFormed m.2 := by
        rintro ⟨key, value⟩ hm
        by_cases hknown : ∃ f, σ.key f = key
        · obtain ⟨f, rfl⟩ := hknown
          exact (hfields f).wellFormed (hr.given f value hm)
        · exact hothers _ hm fun f hf => hknown ⟨f, hf⟩
      exact (hgives text ms _ htext hvalues).2 ⟨r, hr, rfl⟩
  case refuses =>
    obtain ⟨xs, hxs, hmembers⟩ := htext.readsAs hvalues
    rw [readDocument_of_readsAs _ hxs, ← readRecord_eq_error hkeys hopen hmembers]
    cases σ.readRecord (.object xs none) with
    | ok r => exact iff_of_false nofun nofun
    | error e => exact Iff.of_eq (by simp only [Except.map, Except.error.injEq])
  case alike =>
    rw [hgives text ms a htext hvalues, hgives text' ms' a htext' hvalues']
    exact exists_congr fun r => and_congr_left fun _ => gives_congr hperm

end Schema

end SpanWire.Json
