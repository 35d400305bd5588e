import SpanWire.Json.Schema
import SpanWire.Proofs.Json.Reader

/-!
Records are read from the objects that describe them, and every field of a record that is read
has the value of some member or the value of its absence.
-/
namespace SpanWire.Json.Schema

variable {σ : Schema}

namespace Partial

theorem set_self (p : σ.Partial) (f : σ.Field) (v : σ.Value f) : p.set f v f = some v := by
  rw [set]
  split
  · rfl
  · next h _ => exact absurd rfl h

theorem set_of_ne (p : σ.Partial) {f g : σ.Field} (v : σ.Value f) (h : f ≠ g) :
    p.set f v g = p g := by
  rw [set]
  split
  · next heq _ => exact absurd heq h
  · rfl

end Partial

theorem fill_eq {p : σ.Partial} {r : σ.Record} (h : ∀ f, (p f).or (σ.absent f) = some (r f)) :
    σ.fill p = .ok r := by
  unfold fill
  split
  · next f hf =>
    have hmissing := List.find?_some hf
    rw [isMissing, h] at hmissing
    contradiction
  · refine congrArg Except.ok (funext fun f => ?_)
    exact Option.get_of_eq_some _ (h f)

theorem fill_ok {p : σ.Partial} {r : σ.Record} (h : σ.fill p = .ok r) (f : σ.Field) :
    (p f).or (σ.absent f) = some (r f) := by
  unfold fill at h
  split at h
  · contradiction
  · rw [Except.ok.injEq] at h
    rw [← h, Option.some_get]

/-- As long as keys differ, each stands for its own field. -/
theorem fieldOf?_key (hkeys : (σ.fields.map σ.key).Nodup) (f : σ.Field) :
    σ.fieldOf? (σ.key f) = some f := by
  have hmem := σ.complete f
  rw [fieldOf?]
  generalize σ.fields = fs at hkeys hmem
  induction fs with
  | nil => contradiction
  | cons g fs ih =>
    obtain ⟨hg, hfs⟩ := List.nodup_cons.1 hkeys
    rcases List.mem_cons.1 hmem with rfl | hmem
    · exact List.find?_cons_of_pos (decide_eq_true rfl)
    · have hne : σ.key g ≠ σ.key f := fun heq => hg (heq ▸ List.mem_map_of_mem hmem)
      rw [List.find?_cons_of_neg (by simpa using hne)]
      exact ih hfs hmem

/-- The member of a field, if one is written for it. -/
def memberOf (σ : Schema) (written : σ.Field → Option Json.Value) (f : σ.Field) :
    List (String × Json.Value) :=
  ((written f).map fun v => (σ.key f, v)).toList

/-- The members that are written for a record say everything about it: a field without a member
has the value of its absence. -/
structure Describes (written : σ.Field → Option Json.Value) (r : σ.Record) : Prop where
  read : ∀ f v, written f = some v → σ.read f v.draft = .ok (r f)
  absent : ∀ f, written f = none → σ.absent f = some (r f)

variable {written : σ.Field → Option Json.Value} {r : σ.Record}

theorem readMembers_cons (hkeys : (σ.fields.map σ.key).Nodup) {p : σ.Partial}
    {f : σ.Field} {v : Json.Value} {a : σ.Value f} (hp : p f = none)
    (ha : σ.read f v.draft = .ok a) (members : List (Option Token × Draft)) :
    σ.readMembers p (Json.Value.memberDraft (σ.key f, v) :: members) =
      σ.readMembers (p.set f a) members := by
  have hread := readKey_memberDraft (σ.key f, v)
  rw [Json.Value.memberDraft] at hread ⊢
  simp only [readMembers, hread, bind, Except.bind, fieldOf?_key hkeys, hp, ha, Option.isSome_none,
    Bool.false_eq_true, if_false]

/-- Every field up to the end is read once, and no other is touched. -/
theorem readMembers_written (hkeys : (σ.fields.map σ.key).Nodup) (h : Describes written r)
    {fs : List σ.Field} (hnodup : fs.Nodup) {p : σ.Partial} (hfresh : ∀ f ∈ fs, p f = none) :
    ∃ q, σ.readMembers p ((fs.flatMap (σ.memberOf written)).map Json.Value.memberDraft) = .ok q ∧
      (∀ f ∈ fs, q f = (written f).map fun _ => r f) ∧ ∀ f, f ∉ fs → q f = p f := by
  induction fs generalizing p with
  | nil => exact ⟨p, rfl, nofun, fun _ _ => rfl⟩
  | cons f fs ih =>
    obtain ⟨hf, hfs⟩ := List.nodup_cons.1 hnodup
    obtain ⟨hpf, hpfs⟩ := List.forall_mem_cons.1 hfresh
    rw [List.flatMap_cons, List.map_append, memberOf]
    cases hw : written f with
    | none =>
      obtain ⟨q, hq, hin, hout⟩ := ih hfs hpfs
      refine ⟨q, hq, List.forall_mem_cons.2 ⟨?_, hin⟩, fun g hg => ?_⟩
      · rw [hout f hf, hpf, hw]
        rfl
      · exact hout g fun hmem => hg (List.mem_cons_of_mem f hmem)
    | some v =>
      have hfresh' : ∀ g ∈ fs, p.set f (r f) g = none := by
        intro g hg
        rw [Partial.set_of_ne p (r f) fun heq => hf (heq ▸ hg)]
        exact hpfs g hg
      obtain ⟨q, hq, hin, hout⟩ := ih hfs hfresh'
      refine ⟨q, ?_, List.forall_mem_cons.2 ⟨?_, hin⟩, fun g hg => ?_⟩
      · exact (readMembers_cons hkeys hpf (h.read f v hw) _).trans hq
      · rw [hout f hf, Partial.set_self, hw]
        rfl
      · have hne : f ≠ g := fun heq => hg (heq ▸ List.mem_cons_self)
        rw [hout g fun hmem => hg (List.mem_cons_of_mem f hmem), Partial.set_of_ne p _ hne]

/-- An object with a member for every field that has one is read as the record it describes. -/
theorem readRecord_written (hkeys : (σ.fields.map σ.key).Nodup) (h : Describes written r) :
    σ.readRecord (Json.Value.object (σ.fields.flatMap (σ.memberOf written))).draft = .ok r := by
  have hnodup : σ.fields.Nodup :=
    List.Pairwise.of_map σ.key (fun _ _ hne heq => hne (congrArg σ.key heq)) hkeys
  obtain ⟨q, hq, hin, -⟩ := readMembers_written hkeys h hnodup (p := .empty) fun _ _ => rfl
  have hfill : ∀ f, (q f).or (σ.absent f) = some (r f) := by
    intro f
    rw [hin f (σ.complete f)]
    cases hw : written f with
    | none => exact h.absent f hw
    | some v => rfl
  have hfields : σ.readFields
      (Json.Value.object (σ.fields.flatMap (σ.memberOf written))).draft = .ok r := by
    rw [Json.Value.draft_object, readFields]
    simp only [hq, bind, Except.bind, failOn, fill_eq hfill]
  rw [readRecord, hfields]
  rfl

/-- Whatever a partial record holds was read from somewhere. -/
def Sourced (p : σ.Partial) : Prop :=
  ∀ f v, p f = some v → ∃ d, σ.read f d = .ok v

theorem sourced_set {p : σ.Partial} (hp : Sourced p) {f : σ.Field} {v : σ.Value f} {d : Draft}
    (h : σ.read f d = .ok v) : Sourced (p.set f v) := by
  intro g w hw
  by_cases hfg : f = g
  · subst hfg
    rw [Partial.set_self, Option.some.injEq] at hw
    exact ⟨d, hw ▸ h⟩
  · rw [Partial.set_of_ne p v hfg] at hw
    exact hp g w hw

theorem sourced_readMembers {members : List (Option Token × Draft)} {p q : σ.Partial}
    (hp : Sourced p) (h : σ.readMembers p members = .ok q) : Sourced q := by
  induction members generalizing p with
  | nil =>
    rw [readMembers, Except.ok.injEq] at h
    exact h ▸ hp
  | cons m members ih =>
    obtain ⟨k, d⟩ := m
    rw [readMembers] at h
    obtain ⟨key, -, h⟩ := bind_eq_ok.1 h
    split at h
    · next f _ =>
      split at h
      · contradiction
      · obtain ⟨v, hv, h⟩ := bind_eq_ok.1 h
        exact ih (sourced_set hp hv) h
    · split at h
      · contradiction
      · obtain ⟨-, -, h⟩ := bind_eq_ok.1 h
        exact ih hp h

theorem sourced_readItems {cut : Option Fault} {fs : List σ.Field} {ds : List Draft} {index : Nat}
    {p q : σ.Partial} (hp : Sourced p) (h : σ.readItems p index cut fs ds = .ok q) :
    Sourced q := by
  induction fs generalizing p index ds with
  | nil =>
    cases ds with
    | nil =>
      obtain ⟨-, -, h⟩ := bind_eq_ok.1 h
      exact Except.ok.inj h ▸ hp
    | cons d ds => contradiction
  | cons f fs ih =>
    cases ds with
    | nil =>
      obtain ⟨-, -, h⟩ := bind_eq_ok.1 h
      split at h
      · contradiction
      · exact ih hp h
    | cons d ds =>
      obtain ⟨v, hv, h⟩ := bind_eq_ok.1 h
      exact ih (sourced_set hp hv) h

/-- Every field of a record that is read was read itself, or is absent. -/
theorem readRecord_sourced {d : Draft} (h : σ.readRecord d = .ok r) (f : σ.Field) :
    (∃ d, σ.read f d = .ok (r f)) ∨ σ.absent f = some (r f) := by
  have hfields : σ.readFields d = .ok r := mapError_eq_ok.1 h
  have hpartial : ∃ p, Sourced p ∧ σ.fill p = .ok r := by
    have hempty : @Sourced σ .empty := nofun
    cases d with
    | leaf t => exact absurd hfields (wrongType_ne_ok _ _ r)
    | array items cut =>
      obtain ⟨p, hp, hfill⟩ := bind_eq_ok.1 hfields
      exact ⟨p, sourced_readItems hempty hp, hfill⟩
    | object members cut =>
      obtain ⟨p, hp, hcut⟩ := bind_eq_ok.1 hfields
      obtain ⟨-, -, hfill⟩ := bind_eq_ok.1 hcut
      exact ⟨p, sourced_readMembers hempty hp, hfill⟩
  obtain ⟨p, hp, hfill⟩ := hpartial
  have hfield := fill_ok hfill f
  cases hpf : p f with
  | none =>
    rw [hpf] at hfield
    exact .inr hfield
  | some v =>
    rw [hpf, Option.some_or, Option.some.injEq] at hfield
    exact .inl (hfield ▸ hp f v hpf)

theorem cut_of_readItems {fs : List σ.Field} {ds : List Draft} {cut : Option Fault} {index : Nat}
    {p q : σ.Partial} (h : σ.readItems p index cut fs ds = .ok q) : cut = none := by
  induction fs generalizing p index ds with
  | nil =>
    cases ds with
    | nil =>
      obtain ⟨u, hcut, -⟩ := bind_eq_ok.1 h
      exact failOn_eq_ok hcut
    | cons d ds => contradiction
  | cons f fs ih =>
    cases ds with
    | nil =>
      obtain ⟨u, hcut, -⟩ := bind_eq_ok.1 h
      exact failOn_eq_ok hcut
    | cons d ds =>
      obtain ⟨v, -, h⟩ := bind_eq_ok.1 h
      exact ih h

/-- A record is only read where nothing is torn or cut off. -/
theorem skipFault_of_readRecord {d : Draft} (h : σ.readRecord d = .ok r) : d.skipFault = none := by
  have hfields : σ.readFields d = .ok r := mapError_eq_ok.1 h
  cases d with
  | leaf t => exact absurd hfields (wrongType_ne_ok _ _ r)
  | array items cut =>
    obtain ⟨p, hp, -⟩ := bind_eq_ok.1 hfields
    exact cut_of_readItems hp
  | object members cut =>
    obtain ⟨p, -, hfields⟩ := bind_eq_ok.1 hfields
    obtain ⟨u, hcut, -⟩ := bind_eq_ok.1 hfields
    exact failOn_eq_ok hcut

/-- Items are read as the fields in whose places they stand, and no field is touched twice. -/
theorem readItems_ok {fs : List σ.Field} (hnodup : fs.Nodup) {ds : List Draft} {cut : Option Fault}
    {index : Nat} {p q : σ.Partial} (h : σ.readItems p index cut fs ds = .ok q) :
    ds.length ≤ fs.length ∧
      (∀ x ∈ fs.zip ds, ∃ v, σ.read x.1 x.2 = .ok v ∧ q x.1 = some v) ∧
      ∀ f, f ∉ fs → q f = p f := by
  induction fs generalizing p index ds with
  | nil =>
    cases ds with
    | nil =>
      obtain ⟨u, -, h⟩ := bind_eq_ok.1 h
      exact ⟨Nat.le_refl 0, nofun, fun f _ => congrFun (Except.ok.inj h).symm f⟩
    | cons d ds => contradiction
  | cons f fs ih =>
    obtain ⟨hf, hfs⟩ := List.nodup_cons.1 hnodup
    cases ds with
    | nil =>
      obtain ⟨u, -, h⟩ := bind_eq_ok.1 h
      split at h
      · contradiction
      · obtain ⟨-, -, hout⟩ := ih hfs h
        exact ⟨Nat.zero_le _, nofun, fun g hg => hout g fun hmem =>
          hg (List.mem_cons_of_mem f hmem)⟩
    | cons d ds =>
      obtain ⟨v, hv, h⟩ := bind_eq_ok.1 h
      obtain ⟨hlength, hin, hout⟩ := ih hfs h
      have hset : q f = some v := by rw [hout f hf, Partial.set_self]
      refine ⟨Nat.succ_le_succ hlength, ?_, fun g hg => ?_⟩
      · rw [List.zip_cons_cons]
        exact List.forall_mem_cons.2 ⟨⟨v, hv, hset⟩, hin⟩
      · have hne : f ≠ g := fun heq => hg (heq ▸ List.mem_cons_self)
        rw [hout g fun hmem => hg (List.mem_cons_of_mem f hmem), Partial.set_of_ne p v hne]

/-- An array gives the fields of a record by their places. -/
theorem readRecord_array (hnodup : σ.fields.Nodup) {items : List Draft} {cut : Option Fault}
    (h : σ.readRecord (.array items cut) = .ok r) :
    items.length ≤ σ.fields.length ∧
      ∀ x ∈ σ.fields.zip items, σ.read x.1 x.2 = .ok (r x.1) := by
  have hfields : σ.readFields (.array items cut) = .ok r := mapError_eq_ok.1 h
  obtain ⟨q, hq, hfill⟩ := bind_eq_ok.1 hfields
  obtain ⟨hlength, hin, -⟩ := readItems_ok hnodup hq
  refine ⟨hlength, fun x hx => ?_⟩
  obtain ⟨v, hv, hset⟩ := hin x hx
  have hrecord := fill_ok hfill x.1
  rw [hset, Option.some_or, Option.some.injEq] at hrecord
  rw [hv, hrecord]

end SpanWire.Json.Schema
