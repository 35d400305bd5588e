import SpanWire.Cli.Input
import SpanWire.Proofs.Json.Schema

/-!
What a reader takes is sound, except for the parts it skips. A record skips the members whose keys
it does not know, so that nothing is skipped where all keys are known.
-/
namespace SpanWire.Json

/-- Only a quotation that is closed has a value. -/
theorem Quotation.fault_of_join {fault : Option Fault} {done : List Char} {ps : List Piece}
    {s : String} (h : join fault done ps = .ok s) : fault = none := by
  fun_induction join fault done ps with
  | case1 done hfault => exact hfault
  | case3 done c ps ih => exact ih h
  | case7 done n _ _ m ps _ ih => exact ih h
  | case9 done n ps _ _ ih => exact ih h
  | _ => contradiction

theorem Quotation.isSound_of_value {q : Quotation} {s : String} (h : q.value = .ok s) :
    (Token.text q).isSound = true := by
  rw [Token.isSound, h]
  rfl

theorem Token.skipFault_of_isSound {t : Token} (h : t.isSound = true) : t.skipFault = none := by
  cases t with
  | literal l torn => exact Option.isNone_iff_eq_none.1 h
  | number n =>
    cases n with
    | error f => contradiction
    | ok n => rfl
  | text q =>
    cases hvalue : q.value with
    | error f =>
      rw [isSound, hvalue] at h
      contradiction
    | ok s => exact Quotation.fault_of_join hvalue
  | _ => contradiction

/-- A value that shows what it is, and is no array or object, is sound. -/
theorem Token.isSound_of_found {t : Token} {f : Found} (h : t.found = .ok f)
    (harray : f ≠ .sequence) (hobject : f ≠ .map) : t.isSound = true := by
  cases t with
  | literal l torn =>
    cases torn with
    | none => rfl
    | some why => cases l <;> contradiction
  | number n =>
    obtain ⟨n, rfl, hvalue⟩ := bind_eq_ok.1 h
    obtain ⟨v, hv, -⟩ := bind_eq_ok.1 hvalue
    rw [isSound, hv]
    rfl
  | text q =>
    obtain ⟨s, hs, -⟩ := map_eq_ok.1 h
    exact Quotation.isSound_of_value hs
  | openArray => exact absurd (Except.ok.inj h).symm harray
  | openObject => exact absurd (Except.ok.inj h).symm hobject
  | _ => contradiction

namespace Draft

theorem isSound_leaf (depth : Nat) (t : Option Token) :
    isSound depth (leaf t) = isSoundToken t := by
  cases depth <;> rw [isSound]

theorem isSound_array {depth : Nat} {items : List Draft} {cut : Option Fault} :
    isSound (depth + 1) (array items cut) = true ↔
      cut = none ∧ ∀ d ∈ items, isSound depth d = true := by
  rw [isSound, Bool.and_eq_true, Option.isNone_iff_eq_none, List.all_eq_true]

theorem isSound_object {depth : Nat} {members : List (Option Token × Draft)}
    {cut : Option Fault} :
    isSound (depth + 1) (object members cut) = true ↔
      cut = none ∧ ∀ m ∈ members, isSoundToken m.1 = true ∧ isSound depth m.2 = true := by
  simp only [isSound, Bool.and_eq_true, Option.isNone_iff_eq_none, List.all_eq_true]

/-- Whoever skips a sound value meets no fault. -/
theorem skipFault_of_isSound {depth : Nat} {d : Draft} (h : d.isSound depth = true) :
    d.skipFault = none := by
  cases d with
  | leaf t =>
    rw [isSound_leaf] at h
    cases t with
    | none => contradiction
    | some t => exact Token.skipFault_of_isSound h
  | array items cut =>
    cases depth with
    | zero => contradiction
    | succ depth => exact (isSound_array.1 h).1
  | object members cut =>
    cases depth with
    | zero => contradiction
    | succ depth => exact (isSound_object.1 h).1

end Draft

theorem isSoundToken_of_readKey {k : Option Token} {key : String} (h : readKey k = .ok key) :
    isSoundToken k = true := by
  unfold readKey at h
  split at h
  · contradiction
  · exact Quotation.isSound_of_value (mapError_eq_ok.1 h)
  · contradiction

/-- A reader of drafts with a property takes only sound ones among these, given as much depth. -/
def ReadsSound {α : Type} (read : Reader α) (known : Draft → Prop) (needed : Nat) : Prop :=
  ∀ (d : Draft) (a : α) (depth : Nat), known d → read d = .ok a →
    d.isSound (depth + needed) = true

/-- The property that all drafts have. -/
def anyDraft (_ : Draft) : Prop :=
  True

/-- An array has items with the property. -/
def EachItem (known : Draft → Prop) : Draft → Prop
  | .array items _ => ∀ d ∈ items, known d
  | _ => True

section Readers

variable {α β : Type} {read : Reader α} {known : Draft → Prop} {needed : Nat}

theorem ReadsSound.map (h : ReadsSound read known needed) (f : α → β) :
    ReadsSound (fun d => (read d).map f) known needed := by
  intro d b depth hknown hread
  obtain ⟨a, ha, -⟩ := map_eq_ok.1 hread
  exact h d a depth hknown ha

theorem ReadsSound.bind (h : ReadsSound read known needed) (f : α → Except Problem β) :
    ReadsSound (fun d => read d >>= f) known needed := by
  intro d b depth hknown hread
  obtain ⟨a, ha, -⟩ := bind_eq_ok.1 hread
  exact h d a depth hknown ha

/-- A reader that needs less depth also gets by with more. -/
theorem ReadsSound.deeper (h : ReadsSound read known needed) (more : Nat) :
    ReadsSound read known (more + needed) := by
  intro d a depth hknown hread
  rw [← Nat.add_assoc]
  exact h d a (depth + more) hknown hread

variable (known needed)

theorem readsSound_text (expected : Expected) :
    ReadsSound (readText expected) known needed := by
  intro d s depth _ hread
  unfold readText at hread
  split at hread
  · rw [Draft.isSound_leaf]
    exact Quotation.isSound_of_value (mapError_eq_ok.1 hread)
  · exact absurd hread (wrongType_ne_ok _ _ s)

theorem readsSound_bool : ReadsSound readBool known needed := by
  intro d b depth _ hread
  unfold readBool at hread
  split at hread
  · rw [Draft.isSound_leaf]
    rfl
  · rw [Draft.isSound_leaf]
    rfl
  · exact absurd hread (wrongType_ne_ok _ _ b)

theorem readsSound_unit : ReadsSound readUnit known needed := by
  intro d u depth _ hread
  unfold readUnit at hread
  split at hread
  · rw [Draft.isSound_leaf]
    rfl
  · exact absurd hread (wrongType_ne_ok _ _ u)

theorem readsSound_nat (expected : Expected) (bound : Nat) :
    ReadsSound (readNat expected bound) known needed := by
  intro d n depth _ hread
  unfold readNat at hread
  split at hread
  · next i hfound =>
    cases d with
    | leaf t =>
      rw [Draft.isSound_leaf]
      cases t with
      | none => contradiction
      | some t => exact Token.isSound_of_found hfound nofun nofun
    | array items cut => cases hfound
    | object members cut => cases hfound
  · exact absurd hread (wrongType_ne_ok _ _ n)

variable {known needed}

theorem ReadsSound.option (h : ReadsSound read known needed) :
    ReadsSound (readOption read) known needed := by
  intro d o depth hknown hread
  unfold readOption at hread
  split at hread
  · obtain ⟨u, htorn, -⟩ := map_eq_ok.1 hread
    rw [Draft.isSound_leaf, failOn_eq_ok htorn]
    rfl
  · exact h.map some d o depth hknown hread

theorem ReadsSound.list (h : ReadsSound read known needed) :
    ReadsSound (readList read) (EachItem known) (needed + 1) := by
  intro d as depth hknown hread
  unfold readList at hread
  split at hread
  · next items cut =>
    obtain ⟨xs, hitems, hread⟩ := bind_eq_ok.1 hread
    obtain ⟨u, hcut, -⟩ := bind_eq_ok.1 hread
    refine Draft.isSound_array.2 ⟨failOn_eq_ok hcut, fun item hitem => ?_⟩
    obtain ⟨x, hx⟩ := exists_of_mapM_ok hitems item hitem
    exact h item x depth (hknown item hitem) hx
  · exact absurd hread (wrongType_ne_ok _ _ as)

/-- The members of an object have keys of their own and values with the property. -/
theorem ReadsSound.entries (h : ReadsSound read anyDraft needed) :
    ReadsSound (readEntries read) known (needed + 1) := by
  intro d es depth hknown hread
  unfold readEntries at hread
  split at hread
  · next members cut =>
    obtain ⟨xs, hmembers, hread⟩ := bind_eq_ok.1 hread
    obtain ⟨u, hcut, -⟩ := bind_eq_ok.1 hread
    refine Draft.isSound_object.2 ⟨failOn_eq_ok hcut, fun m hm => ?_⟩
    obtain ⟨e, he⟩ := exists_of_mapM_ok hmembers m hm
    obtain ⟨key, hkey, he⟩ := bind_eq_ok.1 he
    obtain ⟨a, ha, -⟩ := bind_eq_ok.1 he
    exact ⟨isSoundToken_of_readKey hkey, h m.2 a depth trivial ha⟩
  · exact absurd hread (wrongType_ne_ok _ _ es)

end Readers

namespace Schema

variable {σ : Schema} {known : σ.Field → Draft → Prop} {needed : Nat}

/-- A record without unknown keys, whose fields have values with their properties. -/
def KnownKeys (σ : Schema) (known : σ.Field → Draft → Prop) : Draft → Prop
  | .leaf _ => True
  | .array items _ => ∀ x ∈ σ.fields.zip items, known x.1 x.2
  | .object members _ => ∀ m ∈ members, ∃ f, readKey m.1 = .ok (σ.key f) ∧ known f m.2

theorem isSound_of_readMembers (hkeys : (σ.fields.map σ.key).Nodup)
    (h : ∀ f, ReadsSound (σ.read f) (known f) needed) {members : List (Option Token × Draft)}
    (hknown : ∀ m ∈ members, ∃ f, readKey m.1 = .ok (σ.key f) ∧ known f m.2) {p q : σ.Partial}
    (hread : σ.readMembers p members = .ok q) (depth : Nat) :
    ∀ m ∈ members, isSoundToken m.1 = true ∧ m.2.isSound (depth + needed) = true := by
  induction members generalizing p with
  | nil => nofun
  | cons m members ih =>
    obtain ⟨⟨f, hkey, hf⟩, hmembers⟩ := List.forall_mem_cons.1 hknown
    rw [readMembers] at hread
    obtain ⟨key, hkey', hread⟩ := bind_eq_ok.1 hread
    obtain rfl : σ.key f = key := Except.ok.inj (hkey.symm.trans hkey')
    simp only [fieldOf?_key hkeys] at hread
    split at hread
    · contradiction
    · obtain ⟨v, hv, hread⟩ := bind_eq_ok.1 hread
      have hvalue := h f m.2 v depth hf hv
      exact List.forall_mem_cons.2
        ⟨⟨isSoundToken_of_readKey hkey, hvalue⟩, ih hmembers hread⟩

theorem isSound_of_readItems (h : ∀ f, ReadsSound (σ.read f) (known f) needed)
    {fs : List σ.Field} {ds : List Draft} {cut : Option Fault} {index : Nat} {p q : σ.Partial}
    (hknown : ∀ x ∈ fs.zip ds, known x.1 x.2) (hread : σ.readItems p index cut fs ds = .ok q)
    (depth : Nat) : ∀ d ∈ ds, d.isSound (depth + needed) = true := by
  induction fs generalizing p index ds with
  | nil =>
    cases ds with
    | nil => nofun
    | cons d ds => contradiction
  | cons f fs ih =>
    cases ds with
    | nil => nofun
    | cons d ds =>
      rw [List.zip_cons_cons] at hknown
      obtain ⟨hd, hds⟩ := List.forall_mem_cons.1 hknown
      obtain ⟨v, hv, hread⟩ := bind_eq_ok.1 hread
      exact List.forall_mem_cons.2 ⟨h f d v depth hd hv, ih hds hread⟩

/-- A record needs one level more than its fields. -/
theorem readsSound_record (hkeys : (σ.fields.map σ.key).Nodup)
    (h : ∀ f, ReadsSound (σ.read f) (known f) needed) :
    ReadsSound σ.readRecord (σ.KnownKeys known) (needed + 1) := by
  intro d r depth hknown hread
  have hfields : σ.readFields d = .ok r := mapError_eq_ok.1 hread
  cases d with
  | leaf t => exact absurd hfields (wrongType_ne_ok _ _ r)
  | array items cut =>
    obtain ⟨p, hitems, -⟩ := bind_eq_ok.1 hfields
    have hsound := isSound_of_readItems h hknown hitems depth
    exact Draft.isSound_array.2 ⟨cut_of_readItems hitems, hsound⟩
  | object members cut =>
    obtain ⟨p, hmembers, hfields⟩ := bind_eq_ok.1 hfields
    obtain ⟨u, hcut, -⟩ := bind_eq_ok.1 hfields
    have hsound := isSound_of_readMembers hkeys h hknown hmembers depth
    exact Draft.isSound_object.2 ⟨failOn_eq_ok hcut, hsound⟩

/-- What is written for a record has known keys only. -/
theorem knownKeys_written {written : σ.Field → Option Json.Value}
    (h : ∀ f v, written f = some v → known f v.draft) :
    σ.KnownKeys known
      (Json.Value.object (σ.fields.flatMap (σ.memberOf written))).draft := by
  rw [Json.Value.draft_object]
  intro m hm
  obtain ⟨n, hn, rfl⟩ := List.mem_map.1 hm
  obtain ⟨f, -, hf⟩ := List.mem_flatMap.1 hn
  rw [memberOf, Option.mem_toList] at hf
  obtain ⟨v, hv, rfl⟩ := Option.map_eq_some_iff.1 hf
  exact ⟨f, readKey_memberDraft (σ.key f, v), h f v hv⟩

end Schema

end SpanWire.Json
