import SpanWire.Proofs.Json.Members

/-!
A value can be told from its text, and what is written for the fields of a record from the object
that has the members for them.
-/
namespace SpanWire.Json

theorem Quotation.ofText_inj {s t : String} (h : ofText s = ofText t) : s = t := by
  have hs := value_ofText s
  rw [h, value_ofText] at hs
  exact (Except.ok.inj hs).symm

theorem Numeral.ofNat_inj {m n : Nat} (h : ofNat m = ofNat n) : m = n := by
  have hdigits : Nat.toDigits 10 m = Nat.toDigits 10 n := congrArg Numeral.whole h
  rw [← Text.natOfDigits_toDigits m, hdigits, Text.natOfDigits_toDigits]

/-- Lists are equal when their images are, if no other element is taken to where one of theirs
is. -/
theorem eq_of_map_eq {α β : Type} {f : α → β} {xs ys : List α}
    (hf : ∀ x ∈ xs, ∀ y, f x = f y → x = y) (h : xs.map f = ys.map f) : xs = ys := by
  induction xs generalizing ys with
  | nil => exact (List.map_eq_nil_iff.1 h.symm).symm
  | cons x xs ih =>
    obtain ⟨hx, hxs⟩ := List.forall_mem_cons.1 hf
    cases ys with
    | nil => contradiction
    | cons y ys =>
      obtain ⟨hhead, htail⟩ := List.cons.inj h
      rw [hx y hhead, ih hxs htail]

namespace Value

/-- Values with one draft are equal. -/
theorem draft_inj {v w : Value} (h : v.draft = w.draft) : v = w := by
  induction v generalizing w with
  | null =>
    cases w with
    | null => rfl
    | bool c => cases c <;> simp [draft] at h
    | _ => simp [draft] at h
  | bool b =>
    cases w with
    | bool c => cases b <;> cases c <;> simp [draft] at h ⊢
    | _ => cases b <;> simp [draft] at h
  | number n =>
    cases w with
    | number m =>
      simp only [draft, Draft.leaf.injEq, Option.some.injEq, Token.number.injEq,
        Except.ok.injEq] at h
      rw [Numeral.ofNat_inj h]
    | bool c => cases c <;> simp [draft] at h
    | _ => simp [draft] at h
  | text s =>
    cases w with
    | text t =>
      simp only [draft, Draft.leaf.injEq, Option.some.injEq, Token.text.injEq] at h
      rw [Quotation.ofText_inj h]
    | bool c => cases c <;> simp [draft] at h
    | _ => simp [draft] at h
  | array items ih =>
    cases w with
    | array items' =>
      rw [draft_array, draft_array, Draft.array.injEq] at h
      rw [eq_of_map_eq (fun v hv w hw => ih v hv hw) h.1]
    | bool c => cases c <;> simp [draft] at h
    | _ => simp [draft] at h
  | object members ih =>
    cases w with
    | object members' =>
      rw [draft_object, draft_object, Draft.object.injEq] at h
      have hmember : ∀ m ∈ members, ∀ m', memberDraft m = memberDraft m' → m = m' := by
        intro m hm m' heq
        simp only [memberDraft, Prod.mk.injEq, Option.some.injEq, Token.text.injEq] at heq
        exact Prod.ext (Quotation.ofText_inj heq.1) (ih m hm heq.2)
      rw [eq_of_map_eq hmember h.1]
    | bool c => cases c <;> simp [draft] at h
    | _ => simp [draft] at h

/-- Values with one text are equal. -/
theorem render_inj {v w : Value} (h : v.render = w.render) : v = w := by
  have hdoc := Document.ofText_render v
  rw [h, Document.ofText_render] at hdoc
  exact (draft_inj (Document.mk.inj hdoc).1).symm

/-- An object with such a member. -/
def HasMember (v : Value) (key : String) (w : Value) : Prop :=
  ∃ ms, v = .object ms ∧ (key, w) ∈ ms

end Value

namespace Schema

variable {σ : Schema} {written written' : σ.Field → Option Json.Value}

/-- The member of a field is what is written for the field. -/
theorem mem_members (hkeys : (σ.fields.map σ.key).Nodup) {f : σ.Field} {v : Json.Value} :
    (σ.key f, v) ∈ σ.fields.flatMap (σ.memberOf written) ↔ written f = some v := by
  rw [List.mem_flatMap]
  constructor
  · rintro ⟨g, -, hg⟩
    obtain ⟨w, hw, heq⟩ := Option.map_eq_some_iff.1 (Option.mem_toList.1 hg)
    obtain ⟨hkey, rfl⟩ := Prod.mk.inj heq
    rwa [key_injective hkeys hkey] at hw
  · intro h
    refine ⟨f, σ.complete f, Option.mem_toList.2 ?_⟩
    rw [h]
    rfl

theorem hasMember_iff (hkeys : (σ.fields.map σ.key).Nodup) {f : σ.Field} {v : Json.Value} :
    (Json.Value.object (σ.fields.flatMap (σ.memberOf written))).HasMember (σ.key f) v ↔
      written f = some v := by
  rw [← mem_members hkeys]
  constructor
  · rintro ⟨ms, hms, hmem⟩
    rwa [Json.Value.object.inj hms]
  · exact fun hmem => ⟨_, rfl, hmem⟩

/-- The member of a field is the only one with its key. -/
theorem filter_members (hkeys : (σ.fields.map σ.key).Nodup) (f : σ.Field) :
    (σ.fields.flatMap (σ.memberOf written)).filter (·.1 = σ.key f) = σ.memberOf written f := by
  obtain ⟨front, back, hfields⟩ := List.append_of_mem (σ.complete f)
  have hnodup : (front.map σ.key ++ σ.key f :: back.map σ.key).Nodup := by
    rwa [hfields, List.map_append, List.map_cons] at hkeys
  have hnew := (List.nodup_middle.1 hnodup).notMem
  rw [← List.map_append] at hnew
  have hothers {fs : List σ.Field} (hfs : ∀ g ∈ fs, g ∈ front ++ back) :
      (fs.flatMap (σ.memberOf written)).filter (·.1 = σ.key f) = [] := by
    refine List.filter_eq_nil_iff.2 fun m hm hkey => ?_
    obtain ⟨g, hg, hm⟩ := List.mem_flatMap.1 hm
    obtain ⟨v, -, rfl⟩ := Option.map_eq_some_iff.1 (Option.mem_toList.1 hm)
    exact hnew (of_decide_eq_true hkey ▸ List.mem_map_of_mem (hfs g hg))
  have hself : (σ.memberOf written f).filter (·.1 = σ.key f) = σ.memberOf written f := by
    refine List.filter_eq_self.2 fun m hm => ?_
    obtain ⟨v, -, rfl⟩ := Option.map_eq_some_iff.1 (Option.mem_toList.1 hm)
    exact decide_eq_true rfl
  rw [hfields, List.flatMap_append, List.flatMap_cons, List.filter_append, List.filter_append,
    hothers fun g => List.mem_append_left back, hothers fun g => List.mem_append_right front, hself,
    List.append_nil, List.nil_append]

/-- Members that are the same were written for the same fields. -/
theorem written_inj (hkeys : (σ.fields.map σ.key).Nodup)
    (h : σ.fields.flatMap (σ.memberOf written) = σ.fields.flatMap (σ.memberOf written')) :
    written = written' := by
  funext f
  apply Option.ext
  intro v
  rw [← mem_members hkeys, h, mem_members hkeys]

end Schema

end SpanWire.Json
