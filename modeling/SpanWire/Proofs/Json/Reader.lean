import SpanWire.Json.Reader
import SpanWire.Proofs.Json.Document

/-! Readers give back the values whose drafts they go through. -/
namespace SpanWire.Json

theorem bind_eq_ok {ε α β : Type} {x : Except ε α} {f : α → Except ε β} {b : β} :
    x >>= f = .ok b ↔ ∃ a, x = .ok a ∧ f a = .ok b := by
  cases x with
  | error e => exact ⟨nofun, nofun⟩
  | ok a => exact ⟨fun h => ⟨a, rfl, h⟩, fun ⟨_, rfl, h⟩ => h⟩

theorem map_eq_ok {ε α β : Type} {x : Except ε α} {f : α → β} {b : β} :
    x.map f = .ok b ↔ ∃ a, x = .ok a ∧ f a = b := by
  cases x with
  | error e => exact ⟨nofun, nofun⟩
  | ok a => exact ⟨fun h => ⟨a, rfl, Except.ok.inj h⟩, fun ⟨_, rfl, h⟩ => congrArg _ h⟩

theorem mapError_eq_error {ε δ α : Type} {x : Except ε α} {f : ε → δ} {d : δ} :
    x.mapError f = .error d ↔ ∃ e, x = .error e ∧ f e = d := by
  cases x with
  | error e => exact ⟨fun h => ⟨e, rfl, Except.error.inj h⟩, fun ⟨_, rfl, h⟩ => congrArg _ h⟩
  | ok a => exact ⟨nofun, nofun⟩

theorem mapError_eq_ok {ε δ α : Type} {x : Except ε α} {f : ε → δ} {a : α} :
    x.mapError f = .ok a ↔ x = .ok a := by
  cases x with
  | error e => exact ⟨nofun, nofun⟩
  | ok b => exact ⟨fun h => congrArg _ (Except.ok.inj h), fun h => congrArg _ (Except.ok.inj h)⟩

theorem mapM_eq_ok {ε α β : Type} {f : α → Except ε β} {as : List α} {bs : List β} :
    as.mapM f = .ok bs ↔ List.Forall₂ (fun a b => f a = .ok b) as bs := by
  induction as generalizing bs with
  | nil =>
    rw [List.mapM_nil, List.forall₂_nil_left_iff]
    exact ⟨fun h => (Except.ok.inj h).symm, fun h => congrArg _ h.symm⟩
  | cons a as ih =>
    rw [List.mapM_cons, bind_eq_ok]
    constructor
    · rintro ⟨b, hb, h⟩
      obtain ⟨bs, hbs, h⟩ := bind_eq_ok.1 h
      obtain rfl := Except.ok.inj h
      exact .cons hb (ih.1 hbs)
    · rintro (_ | ⟨hb, hbs⟩)
      exact ⟨_, hb, bind_eq_ok.2 ⟨_, ih.2 hbs, rfl⟩⟩

theorem exists_of_mapM_ok {ε α β : Type} {f : α → Except ε β} {as : List α} {bs : List β}
    (h : as.mapM f = .ok bs) : ∀ a ∈ as, ∃ b, f a = .ok b := by
  induction mapM_eq_ok.1 h with
  | nil => nofun
  | cons hb hbs ih => exact List.forall_mem_cons.2 ⟨⟨_, hb⟩, ih (mapM_eq_ok.2 hbs)⟩

theorem failOn_eq_ok {why : Option Fault} {u : Unit} (h : failOn why = .ok u) : why = none := by
  cases why with
  | none => rfl
  | some why => contradiction

theorem wrongType_ne_ok {α : Type} (expected : Expected) (found : Except Fault Found) (a : α) :
    wrongType expected found ≠ .ok a := by
  cases found <;> nofun

theorem readText_text (expected : Expected) (s : String) :
    readText expected (Value.text s).draft = .ok s := by
  rw [Value.draft, readText, Quotation.value_ofText]
  rfl

theorem readBool_true : readBool (Value.bool true).draft = .ok true := by
  rw [Value.draft, readBool]

theorem readNat_number (expected : Expected) {bound n : Nat} (hn : n < bound)
    (h : n < UInt64.size) : readNat expected bound (Value.number n).draft = .ok ⟨n, hn⟩ := by
  have hfound : (Value.number n).draft.found = .ok (.integer n) := by
    rw [Value.draft, Draft.found, Found.ofToken?, Token.found]
    simp only [bind, Except.bind, Numeral.value_ofNat h]
  simp [readNat, hfound, hn]

theorem readUInt64_number (expected : Expected) (v : UInt64) :
    readUInt64 expected (Value.number v.toNat).draft = .ok v := by
  rw [readUInt64, readNat_number expected v.toNat_lt v.toNat_lt]
  exact congrArg _ v.ofNatLT_toNat

theorem readUInt16_number (expected : Expected) (v : UInt16) :
    readUInt16 expected (Value.number v.toNat).draft = .ok v := by
  have hlt : v.toNat < UInt64.size := Nat.lt_trans v.toNat_lt (by decide)
  rw [readUInt16, readNat_number expected v.toNat_lt hlt]
  exact congrArg _ v.ofNatLT_toNat

/-- Only `null` is read as nothing. -/
theorem readOption_draft {α : Type} (read : Reader α) {v : Value} (h : v ≠ .null) :
    readOption read v.draft = (read v.draft).map some := by
  cases v with
  | null => contradiction
  | bool b => cases b <;> rfl
  | number n => rw [Value.draft]; rfl
  | text s => rw [Value.draft]; rfl
  | array items => rw [Value.draft]; rfl
  | object members => rw [Value.draft]; rfl

/-- What is written for a part that is there is read as what becomes of the part. -/
theorem readOption_map {α β : Type} {read : Reader β} {write : α → Value} {f : α → β}
    (hnull : ∀ a, write a ≠ .null) (h : ∀ a, read (write a).draft = .ok (f a))
    {o : Option α} {v : Value} (hv : o.map write = some v) :
    readOption read v.draft = .ok (o.map f) := by
  obtain ⟨a, rfl, rfl⟩ := Option.map_eq_some_iff.1 hv
  rw [readOption_draft read (hnull a), h]
  rfl

theorem readOption_written {α : Type} {read : Reader α} {write : α → Value}
    (hnull : ∀ a, write a ≠ .null) (h : ∀ a, read (write a).draft = .ok a)
    {o : Option α} {v : Value} (hv : o.map write = some v) :
    readOption read v.draft = .ok o := by
  have hread := readOption_map (f := id) hnull h hv
  rwa [Option.map_id_fun, id] at hread

/-- A part that is read as being there was read itself. -/
theorem of_readOption_ok {α : Type} {read : Reader α} {d : Draft} {o : Option α}
    (h : readOption read d = .ok o) : ∀ a ∈ o, read d = .ok a := by
  rintro a rfl
  unfold readOption at h
  split at h
  · next torn =>
    cases torn with
    | none => exact absurd (Except.ok.inj h) nofun
    | some why => contradiction
  · cases hd : read d with
    | error problem =>
      rw [hd] at h
      contradiction
    | ok b =>
      rw [hd] at h
      rw [Option.some.inj (Except.ok.inj h)]

theorem mapM_ok {α β : Type} {read : β → Except Problem α} (write : α → β)
    (h : ∀ a, read (write a) = .ok a) (as : List α) : (as.map write).mapM read = .ok as := by
  rw [mapM_eq_ok, List.forall₂_map_left_iff]
  exact List.forall₂_same.2 fun a _ => h a

theorem readList_eq_ok {α : Type} {read : Reader α} {d : Draft} {as : List α} :
    readList read d = .ok as ↔
      ∃ ds, d = .array ds none ∧ List.Forall₂ (fun d a => read d = .ok a) ds as := by
  constructor
  · intro h
    unfold readList at h
    split at h
    · next items cut =>
      obtain ⟨xs, hitems, h⟩ := bind_eq_ok.1 h
      obtain ⟨u, hcut, h⟩ := bind_eq_ok.1 h
      obtain rfl := Except.ok.inj h
      exact ⟨items, by rw [failOn_eq_ok hcut], mapM_eq_ok.1 hitems⟩
    · exact absurd h (wrongType_ne_ok _ _ as)
  · rintro ⟨ds, rfl, hitems⟩
    rw [readList, mapM_eq_ok.2 hitems]
    rfl

theorem readList_array {α : Type} {read : Reader α} {write : α → Value}
    (h : ∀ a, read (write a).draft = .ok a) (as : List α) :
    readList read (Value.array (as.map write)).draft = .ok as := by
  have hitems := mapM_ok (fun a => (write a).draft) h as
  rw [Value.draft_array, List.map_map, readList]
  exact congrArg (· >>= _) hitems

theorem readKey_memberDraft (m : String × Value) : readKey (Value.memberDraft m).1 = .ok m.1 := by
  rw [Value.memberDraft, readKey, Quotation.value_ofText]
  rfl

theorem readEntries_object {α : Type} {read : Reader α} {write : α → Value}
    (h : ∀ a, read (write a).draft = .ok a) (es : List (String × α)) :
    readEntries read (Value.object (es.map fun e => (e.1, write e.2))).draft = .ok es := by
  let readMember (m : Option Token × Draft) : Except Problem (String × α) := do
    let key ← readKey m.1
    let value ← read m.2
    return (key, value)
  have hmember (e : String × α) : readMember (Value.memberDraft (e.1, write e.2)) = .ok e := by
    have hvalue : read (Value.memberDraft (e.1, write e.2)).2 = .ok e.2 := h e.2
    change (readKey _ >>= fun key => read _ >>= fun value => pure (key, value)) = _
    rw [readKey_memberDraft, hvalue]
    rfl
  have hmembers := mapM_ok (fun e => Value.memberDraft (e.1, write e.2)) hmember es
  rw [Value.draft_object, List.map_map, readEntries]
  exact congrArg (· >>= _) hmembers

end SpanWire.Json
