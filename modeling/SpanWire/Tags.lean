/-! The tags of a span: one value a key, in ascending order of the keys. -/
namespace SpanWire

/-- Puts a value under a key, in place of the value the key has. -/
def insertEntry (key value : String) : List (String × String) → List (String × String)
  | [] => [(key, value)]
  | e :: es =>
    if key < e.1 then (key, value) :: e :: es
    else if key = e.1 then (key, value) :: es
    else e :: insertEntry key value es

theorem mem_insertEntry {key value : String} {e : String × String} {es : List (String × String)}
    (h : e ∈ insertEntry key value es) : e.1 = key ∨ e ∈ es := by
  induction es with
  | nil => simp_all [insertEntry]
  | cons d ds ih =>
    unfold insertEntry at h
    split at h
    · rcases List.mem_cons.1 h with rfl | h
      · exact .inl rfl
      · exact .inr h
    · split at h
      · rcases List.mem_cons.1 h with rfl | h
        · exact .inl rfl
        · exact .inr (List.mem_cons_of_mem _ h)
      · rcases List.mem_cons.1 h with rfl | h
        · exact .inr List.mem_cons_self
        · exact (ih h).imp_right (List.mem_cons_of_mem _)

/-- Keys are compared by their code points, which orders them as their bytes in UTF-8 do. -/
structure Tags where
  entries : List (String × String)
  ascending : entries.Pairwise fun d e => d.1 < e.1
  deriving DecidableEq

namespace Tags

def empty : Tags :=
  ⟨[], .nil⟩

def isEmpty (t : Tags) : Bool :=
  t.entries.isEmpty

theorem pairwise_insertEntry (key value : String) {es : List (String × String)}
    (h : es.Pairwise fun d e => d.1 < e.1) :
    (insertEntry key value es).Pairwise fun d e => d.1 < e.1 := by
  induction es with
  | nil => simp [insertEntry]
  | cons d ds ih =>
    obtain ⟨hd, hds⟩ := List.pairwise_cons.1 h
    unfold insertEntry
    split
    · next hlt =>
      refine List.pairwise_cons.2 ⟨fun e he => ?_, h⟩
      rcases List.mem_cons.1 he with rfl | he
      · exact hlt
      · exact String.lt_trans hlt (hd e he)
    · next hnlt =>
      split
      · next heq => exact List.pairwise_cons.2 ⟨fun e he => heq ▸ hd e he, hds⟩
      · next hne =>
        refine List.pairwise_cons.2 ⟨fun e he => ?_, ih hds⟩
        rcases mem_insertEntry he with heq | he
        · exact heq ▸ Std.lt_of_le_of_ne (String.not_lt.1 hnlt) (Ne.symm hne)
        · exact hd e he

def insert (t : Tags) (key value : String) : Tags :=
  ⟨insertEntry key value t.entries, pairwise_insertEntry key value t.ascending⟩

/-- Puts an entry in front, unless the first one has its key. -/
def consUnlessKey (e : String × String) (es : List (String × String)) : List (String × String) :=
  if es.head?.any (·.1 = e.1) then es else e :: es

/-- Of neighbours with one key only the last stays. -/
def lastOfKeys (es : List (String × String)) : List (String × String) :=
  es.foldr consUnlessKey []

theorem mem_of_mem_lastOfKeys {e : String × String} {es : List (String × String)}
    (h : e ∈ lastOfKeys es) : e ∈ es := by
  induction es with
  | nil => exact h
  | cons d ds ih =>
    change e ∈ consUnlessKey d (lastOfKeys ds) at h
    unfold consUnlessKey at h
    split at h
    · exact List.mem_cons_of_mem _ (ih h)
    · rcases List.mem_cons.1 h with rfl | h
      · exact List.mem_cons_self
      · exact List.mem_cons_of_mem _ (ih h)

theorem pairwise_lastOfKeys {es : List (String × String)}
    (h : es.Pairwise fun d e => d.1 ≤ e.1) : (lastOfKeys es).Pairwise fun d e => d.1 < e.1 := by
  induction es with
  | nil => exact .nil
  | cons d ds ih =>
    obtain ⟨hd, hds⟩ := List.pairwise_cons.1 h
    change (consUnlessKey d (lastOfKeys ds)).Pairwise _
    unfold consUnlessKey
    split
    · exact ih hds
    · next hne =>
      refine List.pairwise_cons.2 ⟨fun e he => ?_, ih hds⟩
      cases hl : lastOfKeys ds with
      | nil => simp [hl] at he
      | cons f fs =>
        have hf : d.1 < f.1 := by
          refine Std.lt_of_le_of_ne (hd f (mem_of_mem_lastOfKeys (hl ▸ List.mem_cons_self))) ?_
          rintro heq
          simp [hl, heq] at hne
        rcases List.mem_cons.1 (hl ▸ he) with rfl | he
        · exact hf
        · exact String.lt_trans hf ((List.pairwise_cons.1 (hl ▸ ih hds)).1 e he)

def sortByKey (es : List (String × String)) : List (String × String) :=
  es.mergeSort fun d e => d.1 ≤ e.1

theorem key_le_trans (a b c : String × String) (hab : decide (a.1 ≤ b.1) = true)
    (hbc : decide (b.1 ≤ c.1) = true) : decide (a.1 ≤ c.1) = true :=
  decide_eq_true (String.le_trans (of_decide_eq_true hab) (of_decide_eq_true hbc))

theorem key_le_total (a b : String × String) :
    (decide (a.1 ≤ b.1) || decide (b.1 ≤ a.1)) = true := by
  simp only [Bool.or_eq_true, decide_eq_true_eq]
  exact String.le_total _ _

theorem pairwise_sortByKey (es : List (String × String)) :
    (sortByKey es).Pairwise fun d e => d.1 ≤ e.1 :=
  (List.pairwise_mergeSort key_le_trans key_le_total es).imp of_decide_eq_true

/-- Of several values for one key the last stays. -/
def ofList (entries : List (String × String)) : Tags :=
  ⟨lastOfKeys (sortByKey entries), pairwise_lastOfKeys (pairwise_sortByKey entries)⟩

end Tags

end SpanWire
