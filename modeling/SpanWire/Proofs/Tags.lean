import SpanWire.Proofs.LastGiven
import SpanWire.Proofs.Text.Utf8
import SpanWire.Tags

/-!
Tags as maps. From a list of entries they take the last value of each key, one by one or all at
once, and from their own entries they are put together again.
-/
namespace SpanWire

/-- A key above all others goes to the end. -/
theorem insertEntry_of_lt {key value : String} {es : List (String × String)}
    (h : ∀ e ∈ es, e.1 < key) : insertEntry key value es = es ++ [(key, value)] := by
  induction es with
  | nil => rfl
  | cons e es ih =>
    obtain ⟨he, hes⟩ := List.forall_mem_cons.1 h
    have hnlt : ¬ key < e.1 := fun hlt => String.lt_irrefl e.1 (String.lt_trans he hlt)
    have hne : key ≠ e.1 := fun heq => String.lt_irrefl e.1 (heq ▸ he)
    rw [insertEntry, if_neg hnlt, if_neg hne, ih hes, List.cons_append]

theorem lookup_cons_eq (e : String × String) (es : List (String × String)) (key : String) :
    (e :: es).lookup key = if e.1 = key then some e.2 else es.lookup key := by
  obtain ⟨k, value⟩ := e
  by_cases hkey : k = key
  · rw [hkey, List.lookup_cons_self, if_pos rfl]
  · rw [List.lookup_cons, beq_false_of_ne (Ne.symm hkey), if_neg hkey]

theorem lookup_insertEntry (key value other : String) (es : List (String × String)) :
    (insertEntry key value es).lookup other =
      if key = other then some value else es.lookup other := by
  induction es with
  | nil => exact lookup_cons_eq (key, value) [] other
  | cons e es ih =>
    rw [insertEntry]
    split
    · exact lookup_cons_eq (key, value) (e :: es) other
    · split
      · next hkey => rw [lookup_cons_eq, lookup_cons_eq, ← hkey]; split <;> rfl
      · next hkey =>
        rw [lookup_cons_eq, ih, lookup_cons_eq]
        by_cases hother : e.1 = other
        · have hne : key ≠ other := fun heq => hkey (heq.trans hother.symm)
          simp only [hother, hne, if_true, if_false]
        · simp only [hother, if_false]

/-- Behind a key there are only other keys. -/
theorem lookup_eq_some_iff {es : List (String × String)} (h : es.Pairwise fun d e => d.1 < e.1)
    {key value : String} : es.lookup key = some value ↔ (key, value) ∈ es := by
  induction es with
  | nil => exact iff_of_false nofun List.not_mem_nil
  | cons e es ih =>
    obtain ⟨he, hes⟩ := List.pairwise_cons.1 h
    rw [lookup_cons_eq, List.mem_cons]
    split
    · next hkey =>
      have hrest : (key, value) ∉ es := fun hmem =>
        String.lt_irrefl key (hkey ▸ he (key, value) hmem)
      rw [or_iff_left hrest, Option.some.injEq, ← hkey, Prod.ext_iff]
      simp [eq_comm]
    · next hkey =>
      have hhead : (key, value) ≠ e := fun heq => hkey (congrArg Prod.fst heq).symm
      rw [or_iff_right hhead, ih hes]

/-- The value of an entry with the key. -/
def valueUnder? (key : String) (e : String × String) : Option String :=
  if e.1 = key then some e.2 else none

namespace Tags

/-- The order of the keys is that of their bytes. -/
theorem ascending_utf8 (t : Tags) :
    t.entries.Pairwise fun d e => Text.utf8 d.1 < Text.utf8 e.1 :=
  t.ascending.imp Text.utf8_lt_iff.2

theorem ext {t u : Tags} (h : t.entries = u.entries) : t = u := by
  obtain ⟨es, hes⟩ := t
  obtain ⟨fs, hfs⟩ := u
  cases h
  rfl

private theorem entries_foldl_insert (t : Tags) {es : List (String × String)}
    (h : (t.entries ++ es).Pairwise fun d e => d.1 < e.1) :
    (es.foldl (fun t e => t.insert e.1 e.2) t).entries = t.entries ++ es := by
  induction es generalizing t with
  | nil => exact (List.append_nil _).symm
  | cons e es ih =>
    have hlast : (t.insert e.1 e.2).entries = t.entries ++ [e] :=
      insertEntry_of_lt fun d hd => (List.pairwise_append.1 h).2.2 d hd e List.mem_cons_self
    rw [List.foldl_cons, ih _ (by rwa [hlast, List.append_assoc]), hlast, List.append_assoc,
      List.singleton_append]

/-- The entries inserted one after the other make the tags they are from. -/
theorem foldl_insert (t : Tags) :
    t.entries.foldl (fun t e => t.insert e.1 e.2) .empty = t :=
  ext (entries_foldl_insert .empty t.ascending)

/-- The value under a key. -/
def get? (t : Tags) (key : String) : Option String :=
  t.entries.lookup key

theorem get?_eq_some_iff {t : Tags} {key value : String} :
    t.get? key = some value ↔ (key, value) ∈ t.entries :=
  lookup_eq_some_iff t.ascending

theorem get?_insert (t : Tags) (key value other : String) :
    (t.insert key value).get? other = if key = other then some value else t.get? other :=
  lookup_insertEntry key value other t.entries

/-- No key is there twice. -/
theorem nodup_keys (t : Tags) : (t.entries.map Prod.fst).Nodup :=
  List.pairwise_map.2 (t.ascending.imp Std.ne_of_lt)

theorem nodup_entries (t : Tags) : t.entries.Nodup :=
  t.ascending.imp fun hlt heq => Std.ne_of_lt hlt (congrArg Prod.fst heq)

/-- Tags with the same values under all keys are equal. -/
theorem ext_get? {t u : Tags} (h : ∀ key, t.get? key = u.get? key) : t = u := by
  have hmem (e : String × String) : e ∈ t.entries ↔ e ∈ u.entries := by
    rw [← get?_eq_some_iff, ← get?_eq_some_iff, h]
  have hperm : t.entries.Perm u.entries :=
    (List.perm_ext_iff_of_nodup t.nodup_entries u.nodup_entries).2 hmem
  refine ext (hperm.eq_of_pairwise (fun d e _ _ hde hed => ?_) t.ascending u.ascending)
  exact absurd (String.lt_trans hde hed) (String.lt_irrefl d.1)

/-- Sorting keeps the entries with one key in their order. -/
theorem filter_sortByKey (key : String) (es : List (String × String)) :
    (sortByKey es).filter (·.1 = key) = es.filter (·.1 = key) := by
  -- The sort does not tear apart what is sorted already, as entries with one key are.
  have hsame : (es.filter (·.1 = key)).Pairwise fun d e => decide (d.1 ≤ e.1) = true := by
    refine List.pairwise_of_forall_mem_list fun d hd e he => ?_
    have hd := of_decide_eq_true (List.mem_filter.1 hd).2
    have he := of_decide_eq_true (List.mem_filter.1 he).2
    exact decide_eq_true (hd.trans he.symm ▸ String.le_refl _)
  have hsub : (es.filter (·.1 = key)).Sublist (sortByKey es) :=
    List.sublist_mergeSort key_le_trans key_le_total hsame List.filter_sublist
  have hsub : (es.filter (·.1 = key)).Sublist ((sortByKey es).filter (·.1 = key)) := by
    have hfilter := hsub.filter (·.1 = key)
    simpa only [List.filter_filter, Bool.and_self] using hfilter
  exact (hsub.eq_of_length ((List.mergeSort_perm es _).filter _).length_eq.symm).symm

/-- An entry in front counts unless there is one with its key. -/
theorem lookup_consUnlessKey {e : String × String} {es : List (String × String)}
    (h : (consUnlessKey e es).Pairwise fun d e => d.1 < e.1) (key : String) :
    (consUnlessKey e es).lookup key = (es.lookup key).or (valueUnder? key e) := by
  rw [consUnlessKey] at h ⊢
  rw [valueUnder?]
  by_cases hkey : e.1 = key
  · subst hkey
    rw [if_pos rfl]
    split at h
    · next hhead =>
      obtain ⟨d, hd, hkey⟩ := (Option.any_eq_true _ _).1 hhead
      obtain ⟨ds, rfl⟩ := List.head?_eq_some_iff.1 hd
      rw [if_pos hhead, lookup_cons_eq, if_pos (of_decide_eq_true hkey), Option.some_or]
    · next hhead =>
      -- Here all keys behind the entry are greater than its own.
      have hnone : es.lookup e.1 = none := by
        refine Option.eq_none_iff_forall_ne_some.2 fun value hvalue => ?_
        obtain ⟨he, hes⟩ := List.pairwise_cons.1 h
        exact String.lt_irrefl e.1 (he (e.1, value) ((lookup_eq_some_iff hes).1 hvalue))
      rw [if_neg hhead, lookup_cons_eq, if_pos rfl, hnone, Option.none_or]
  · rw [if_neg hkey, Option.or_none]
    split
    · rfl
    · rw [lookup_cons_eq, if_neg hkey]

theorem lookup_lastOfKeys {es : List (String × String)} (h : es.Pairwise fun d e => d.1 ≤ e.1)
    (key : String) : (lastOfKeys es).lookup key = lastGiven (valueUnder? key) es := by
  induction es with
  | nil => rfl
  | cons e es ih =>
    have hlast : lastOfKeys (e :: es) = consUnlessKey e (lastOfKeys es) := rfl
    rw [hlast, lookup_consUnlessKey (hlast ▸ pairwise_lastOfKeys h), ih h.tail, lastGiven_cons]

/-- Under each key is the value that is given for it last. -/
theorem get?_ofList (es : List (String × String)) (key : String) :
    (ofList es).get? key = lastGiven (valueUnder? key) es := by
  have hothers (e : String × String) (he : decide (e.1 = key) = false) :
      valueUnder? key e = none :=
    if_neg (of_decide_eq_false he)
  have hsorted := lookup_lastOfKeys (pairwise_sortByKey es) key
  rw [← lastGiven_filter hothers, filter_sortByKey, lastGiven_filter hothers] at hsorted
  exact hsorted

theorem get?_foldl_insert (t : Tags) (es : List (String × String)) (key : String) :
    (es.foldl (fun t e => t.insert e.1 e.2) t).get? key =
      (lastGiven (valueUnder? key) es).elim (t.get? key) some := by
  refine foldl_lastGiven (fun t : Tags => t.get? key) (fun t e => ?_) t es
  rw [get?_insert, valueUnder?]
  split <;> rfl

/-- All entries at once make the same tags as one after the other. -/
theorem ofList_eq (es : List (String × String)) :
    ofList es = es.foldl (fun t e => t.insert e.1 e.2) .empty := by
  refine ext_get? fun key => ?_
  rw [get?_ofList, get?_foldl_insert]
  cases lastGiven (valueUnder? key) es <;> rfl

/-- Ascending entries are neither sorted nor thinned out. -/
theorem ofList_entries (t : Tags) : ofList t.entries = t :=
  (ofList_eq t.entries).trans t.foldl_insert

end Tags

end SpanWire
