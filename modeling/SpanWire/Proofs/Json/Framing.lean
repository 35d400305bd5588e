import SpanWire.Proofs.Json.Token

/-!
A text that is read as a value is read alike inside any open frames, and where frames are closed
behind a value, that value was read first.
-/
namespace SpanWire.Json

def Draft.isObject : Draft → Bool
  | object .. => true
  | _ => false

def Frame.isObject : Frame → Bool
  | object .. => true
  | array _ => false

namespace Progress

/-- A token that opens nothing is all of its value. -/
theorem stepValue_leaf (stack : List Frame) {t : Token} (harray : t ≠ .openArray)
    (hobject : t ≠ .openObject) :
    stepValue stack t =
      match t.skipFault with
      | none => after (.leaf (some t)) stack
      | some why => halt why stack (.leaf (some t)) := by
  cases t <;> first | contradiction | rfl

theorem step_firstItem (stack : List Frame) {t : Token} (h : t ≠ .closeArray) :
    (firstItem stack).step t = (value (.array [] :: stack)).step t := by
  cases t <;> first | contradiction | rfl

theorem step_firstKey (stack : List Frame) {t : Token} (h : t ≠ .closeObject) :
    (firstKey stack).step t = (key [] stack).step t := by
  cases t <;> first | contradiction | rfl

def isStopped : Progress → Bool
  | stopped _ => true
  | _ => false

/-- A reading that goes through to its end has not stopped before. -/
theorem isStopped_of_foldl {ts : List Token} {p : Progress}
    (h : (ts.foldl step p).isStopped = false) : p.isStopped = false := by
  cases p with
  | stopped doc =>
    rw [foldl_stopped] at h
    contradiction
  | _ => rfl

theorem ne_of_isBroken {t u : Token} (ht : t.isBroken = true) (hu : u.isBroken = false) :
    t ≠ u := by
  rintro rfl
  rw [ht] at hu
  contradiction

theorem skipFault_of_isBroken {t : Token} (h : t.isBroken = true) :
    ∃ why, t.skipFault = some why := by
  cases t with
  | literal l torn => exact Option.isSome_iff_exists.1 h
  | number n =>
    cases n with
    | error f => exact ⟨.malformed, rfl⟩
    | ok n => contradiction
  | text q => exact Option.isSome_iff_exists.1 h
  | stray => exact ⟨.malformed, rfl⟩
  | _ => contradiction

theorem isStopped_stepValue {t : Token} (h : t.isBroken = true) (stack : List Frame) :
    (stepValue stack t).isStopped = true := by
  obtain ⟨why, hwhy⟩ := skipFault_of_isBroken h
  rw [stepValue_leaf stack (ne_of_isBroken h rfl) (ne_of_isBroken h rfl), hwhy]
  rfl

theorem isStopped_stepKey {t : Token} (h : t.isBroken = true)
    (members : List (Option Token × Draft)) (stack : List Frame) :
    (stepKey members stack t).isStopped = true := by
  cases t with
  | text q =>
    obtain ⟨pieces, fault⟩ := q
    cases fault with
    | none => contradiction
    | some why => rfl
  | _ => rfl

/-- No text is read beyond a broken token. -/
theorem isStopped_step {t : Token} (h : t.isBroken = true) (p : Progress) :
    (p.step t).isStopped = true := by
  have hvalue := isStopped_stepValue h
  have hkey := isStopped_stepKey h
  cases p with
  | value stack => exact hvalue stack
  | firstItem stack =>
    rw [step_firstItem stack (ne_of_isBroken h rfl)]
    exact hvalue (.array [] :: stack)
  | firstKey stack =>
    rw [step_firstKey stack (ne_of_isBroken h rfl)]
    exact hkey [] stack
  | key members stack => exact hkey members stack
  | colon members k stack => cases t <;> first | contradiction | rfl
  | after d stack =>
    cases stack with
    | nil => rfl
    | cons f stack => cases f <;> cases t <;> first | contradiction | rfl
  | stopped doc => rfl

theorem not_isBroken_of_foldl {ts : List Token} {p : Progress}
    (h : (ts.foldl step p).isStopped = false) : ∀ t ∈ ts, t.isBroken = false := by
  induction ts generalizing p with
  | nil => nofun
  | cons t ts ih =>
    have hopen : (p.step t).isStopped = false := isStopped_of_foldl h
    refine List.forall_mem_cons.2 ⟨?_, ih h⟩
    by_contra hbroken
    rw [isStopped_step ((Bool.not_eq_false _).mp hbroken) p] at hopen
    contradiction

/-- The same progress with more frames open around it. -/
def above (base : List Frame) : Progress → Progress
  | value stack => value (stack ++ base)
  | firstItem stack => firstItem (stack ++ base)
  | firstKey stack => firstKey (stack ++ base)
  | key members stack => key members (stack ++ base)
  | colon members k stack => colon members k (stack ++ base)
  | after d stack => after d (stack ++ base)
  | stopped doc => stopped doc

/-- One reading goes on as another does inside more frames, or both have stopped. -/
def Follows (base : List Frame) (p q : Progress) : Prop :=
  q = p.above base ∨ (p.isStopped = true ∧ q.isStopped = true)

variable (base : List Frame)

theorem follows_stepValue (stack : List Frame) (t : Token) :
    Follows base (stepValue stack t) (stepValue (stack ++ base) t) := by
  by_cases harray : t = .openArray
  · rw [harray]
    exact .inl rfl
  by_cases hobject : t = .openObject
  · rw [hobject]
    exact .inl rfl
  rw [stepValue_leaf stack harray hobject, stepValue_leaf (stack ++ base) harray hobject]
  cases t.skipFault with
  | none => exact .inl rfl
  | some why => exact .inr ⟨rfl, rfl⟩

theorem follows_stepKey (members : List (Option Token × Draft)) (stack : List Frame) (t : Token) :
    Follows base (stepKey members stack t) (stepKey members (stack ++ base) t) := by
  cases t with
  | text q =>
    obtain ⟨pieces, fault⟩ := q
    cases fault with
    | none => exact .inl rfl
    | some why => exact .inr ⟨rfl, rfl⟩
  | _ => exact .inr ⟨rfl, rfl⟩

/-- A step does not look at the outer frames while something inside them is unfinished. -/
theorem follows_step {p : Progress} (h : ∀ d, p ≠ .after d []) (t : Token) :
    Follows base (p.step t) ((p.above base).step t) := by
  cases p with
  | value stack => exact follows_stepValue base stack t
  | firstItem stack =>
    by_cases hclose : t = .closeArray
    · rw [hclose]
      exact .inl rfl
    · rw [above, step_firstItem stack hclose, step_firstItem (stack ++ base) hclose]
      exact follows_stepValue base (.array [] :: stack) t
  | firstKey stack =>
    by_cases hclose : t = .closeObject
    · rw [hclose]
      exact .inl rfl
    · rw [above, step_firstKey stack hclose, step_firstKey (stack ++ base) hclose]
      exact follows_stepKey base [] stack t
  | key members stack => exact follows_stepKey base members stack t
  | colon members k stack =>
    cases t with
    | colon => exact .inl rfl
    | _ => exact .inr ⟨rfl, rfl⟩
  | after d stack =>
    cases stack with
    | nil => exact absurd rfl (h d)
    | cons f stack => cases f <;> cases t <;> first | exact .inl rfl | exact .inr ⟨rfl, rfl⟩
  | stopped doc => exact .inl rfl

/-- What is read on its own is read alike inside open frames. -/
theorem foldl_above {ts : List Token} {p : Progress} (h : (ts.foldl step p).isStopped = false) :
    ts.foldl step (p.above base) = (ts.foldl step p).above base := by
  induction ts generalizing p with
  | nil => rfl
  | cons t ts ih =>
    have hopen : (p.step t).isStopped = false := isStopped_of_foldl h
    have hunfinished : ∀ d, p ≠ .after d [] := by
      rintro d rfl
      contradiction
    rw [List.foldl_cons, List.foldl_cons]
    rcases follows_step base hunfinished t with hstep | ⟨hstop, -⟩
    · rw [hstep, ih h]
    · rw [hopen] at hstop
      contradiction

variable {base}

/-- Where frames are closed behind a value, the value was read first. -/
theorem exists_split (hbase : base ≠ []) {ts : List Token} {p : Progress} {e : Draft}
    (h : ts.foldl step (p.above base) = .after e []) :
    ∃ front back d, ts = front ++ back ∧ front.foldl step p = .after d [] ∧
      back.foldl step (.after d base) = .after e [] := by
  induction ts generalizing p with
  | nil =>
    cases p with
    | after d stack =>
      have hstack : stack ++ base = [] := (Progress.after.inj h).2
      exact absurd (List.append_eq_nil_iff.1 hstack).2 hbase
    | _ => contradiction
  | cons t ts ih =>
    by_cases hdone : ∃ d, p = .after d []
    · obtain ⟨d, rfl⟩ := hdone
      exact ⟨[], t :: ts, d, rfl, rfl, h⟩
    · rcases follows_step base (fun d hd => hdone ⟨d, hd⟩) t with hstep | ⟨-, hstop⟩
      · rw [List.foldl_cons, hstep] at h
        obtain ⟨front, back, d, rfl, hfront, hback⟩ := ih h
        exact ⟨t :: front, back, d, rfl, hfront, hback⟩
      · have hend : ((t :: ts).foldl step (p.above base)).isStopped = false := by
          rw [h]
          rfl
        have hopen : ((p.above base).step t).isStopped = false := isStopped_of_foldl hend
        rw [hstop] at hopen
        contradiction

theorem read_nil (p : Progress) : read p [] = p := by
  rw [read, Token.scanAll_nil]
  rfl

theorem readsAs_iff {text : List Char} {d : Draft} :
    ReadsAs text d ↔ read (.value []) text = .after d [] := by
  constructor
  · intro h
    have hread := h [] [] nofun
    rwa [List.append_nil, read_nil] at hread
  · intro h stack rest hrest
    have hopen : ((Token.scanAll [] text).foldl step (.value [])).isStopped = false := by
      change (read (.value []) text).isStopped = false
      rw [h]
      rfl
    have habove := foldl_above stack hopen
    change _ = (read (.value []) text).above stack at habove
    rw [h] at habove
    unfold read
    rw [Token.scanAll_append (not_isBroken_of_foldl hopen) hrest, List.foldl_append]
    exact congrArg (List.foldl step · _) habove

theorem ReadsAs.unique {text : List Char} {d e : Draft} (hd : ReadsAs text d)
    (he : ReadsAs text e) : d = e := by
  have heq := (readsAs_iff.1 hd).symm.trans (readsAs_iff.1 he)
  exact (Progress.after.inj heq).1

theorem skipFault_unwind {why : Fault} {stack : List Frame} {d : Draft}
    (h : stack ≠ [] ∨ d.skipFault ≠ none) : (unwind why stack d).skipFault ≠ none := by
  induction stack generalizing d with
  | nil => exact h.resolve_left fun hne => hne rfl
  | cons f stack ih =>
    have hclosed : (f.close (some why) d).skipFault ≠ none := by
      cases f <;> exact Option.some_ne_none why
    exact ih (.inr hclosed)

/-- A value is behind what is read only if it is whole, and a text is given up in the middle of a
value only at a fault. -/
def Consistent : Progress → Prop
  | after d _ => d.skipFault = none
  | stopped ⟨d, false⟩ => d.skipFault ≠ none
  | _ => True

theorem consistent_halt {why : Fault} {stack : List Frame} {d : Draft}
    (h : stack ≠ [] ∨ d.skipFault ≠ none) : (halt why stack d).Consistent :=
  skipFault_unwind h

theorem consistent_stepValue (stack : List Frame) (t : Token) :
    (stepValue stack t).Consistent := by
  by_cases harray : t = .openArray
  · rw [harray]
    exact trivial
  by_cases hobject : t = .openObject
  · rw [hobject]
    exact trivial
  rw [stepValue_leaf stack harray hobject]
  cases hfault : t.skipFault with
  | none => exact hfault
  | some why =>
    refine consistent_halt (.inr ?_)
    change t.skipFault ≠ none
    rw [hfault]
    exact Option.some_ne_none why

theorem consistent_stepKey (members : List (Option Token × Draft)) (stack : List Frame)
    (t : Token) : (stepKey members stack t).Consistent := by
  have hopen (k : Option Token) : Frame.object members k :: stack ≠ [] := List.cons_ne_nil _ _
  cases t with
  | text q =>
    obtain ⟨pieces, fault⟩ := q
    cases fault with
    | none => exact trivial
    | some why => exact consistent_halt (.inl (hopen _))
  | _ => exact consistent_halt (.inl (hopen _))

theorem consistent_step {p : Progress} (h : p.Consistent) (t : Token) :
    (p.step t).Consistent := by
  cases p with
  | value stack => exact consistent_stepValue stack t
  | firstItem stack =>
    by_cases hclose : t = .closeArray
    · rw [hclose]
      rfl
    · rw [step_firstItem stack hclose]
      exact consistent_stepValue _ t
  | firstKey stack =>
    by_cases hclose : t = .closeObject
    · rw [hclose]
      rfl
    · rw [step_firstKey stack hclose]
      exact consistent_stepKey [] stack t
  | key members stack => exact consistent_stepKey members stack t
  | colon members k stack =>
    cases t with
    | colon => exact trivial
    | _ => exact consistent_halt (.inl (List.cons_ne_nil _ _))
  | after d stack =>
    cases stack with
    | nil => exact trivial
    | cons f stack =>
      cases f <;> cases t <;>
        first | exact trivial | rfl | exact consistent_halt (.inl (List.cons_ne_nil _ _))
  | stopped doc => exact h

theorem consistent_read {p : Progress} (h : p.Consistent) (s : List Char) :
    (read p s).Consistent := by
  unfold read
  induction Token.scanAll [] s generalizing p with
  | nil => exact h
  | cons t ts ih => exact ih (consistent_step h t)

/-- Where a text ends too early, its draft has a fault. -/
theorem skipFault_finish {p : Progress} (hopen : p.isStopped = false)
    (h : ∀ d, p ≠ .after d []) : p.finish.draft.skipFault ≠ none := by
  have hmissing : (Draft.leaf none).skipFault ≠ none := nofun
  cases p with
  | after d stack =>
    cases stack with
    | nil => exact absurd rfl (h d)
    | cons f stack => exact skipFault_unwind (.inl (List.cons_ne_nil f stack))
  | stopped doc => contradiction
  | value stack => exact skipFault_unwind (.inr hmissing)
  | firstItem stack => exact skipFault_unwind (.inr hmissing)
  | firstKey stack => exact skipFault_unwind (.inr hmissing)
  | key members stack => exact skipFault_unwind (.inr hmissing)
  | colon members k stack => exact skipFault_unwind (.inr hmissing)

/-- The drafts of texts that hold nothing but a whole value. -/
theorem readsAs_iff_ofText {text : String} {d : Draft} :
    ReadsAs text.toList d ↔ Document.ofText text = ⟨d, false⟩ ∧ d.skipFault = none := by
  have hdoc : Document.ofText text = (read (.value []) text.toList).finish := rfl
  have hconsistent : (read (.value []) text.toList).Consistent :=
    consistent_read (p := .value []) trivial _
  rw [readsAs_iff, hdoc]
  generalize read (.value []) text.toList = p at hconsistent
  constructor
  · rintro rfl
    exact ⟨rfl, hconsistent⟩
  · rintro ⟨hfinish, hwhole⟩
    by_cases hdone : ∃ e, p = .after e []
    · obtain ⟨e, rfl⟩ := hdone
      rw [← (Document.mk.inj hfinish).1]
      rfl
    cases hstop : p.isStopped with
    | false =>
      have hfault := skipFault_finish hstop fun e he => hdone ⟨e, he⟩
      rw [hfinish] at hfault
      contradiction
    | true =>
      cases p with
      | stopped doc =>
        obtain rfl : doc = ⟨d, false⟩ := hfinish
        contradiction
      | _ => contradiction

/-- Whether the outermost value is an object, given what the frames are around. -/
def isObjectAround (inner : Bool) (stack : List Frame) : Bool :=
  stack.foldl (fun _ f => f.isObject) inner

/-- Whether the one value of a text turns out to be an object. -/
def isObject : Progress → Bool
  | value stack => isObjectAround false stack
  | firstItem stack => isObjectAround false stack
  | firstKey stack => isObjectAround true stack
  | key _ stack => isObjectAround true stack
  | colon _ _ stack => isObjectAround true stack
  | after d stack => isObjectAround d.isObject stack
  | stopped doc => doc.draft.isObject

theorem isObjectAround_of_false {stack : List Frame} (h : isObjectAround false stack = true)
    (inner : Bool) : isObjectAround inner stack = true := by
  cases stack with
  | nil => contradiction
  | cons f stack => exact h

theorem isObject_halt (why : Fault) (stack : List Frame) (d : Draft) :
    (halt why stack d).isObject = isObjectAround d.isObject stack := by
  change (unwind why stack d).isObject = _
  induction stack generalizing d with
  | nil => rfl
  | cons f stack ih =>
    have hclosed : (f.close (some why) d).isObject = f.isObject := by cases f <;> rfl
    exact (ih _).trans (congrArg (isObjectAround · stack) hclosed)

theorem isObject_stepValue {stack : List Frame} (h : isObjectAround false stack = true)
    (t : Token) : (stepValue stack t).isObject = true := by
  by_cases harray : t = .openArray
  · rw [harray]
    exact h
  by_cases hobject : t = .openObject
  · rw [hobject]
    exact isObjectAround_of_false h true
  rw [stepValue_leaf stack harray hobject]
  cases t.skipFault with
  | none => exact h
  | some why => exact (isObject_halt why stack _).trans h

theorem isObject_stepKey {stack : List Frame} (h : isObjectAround true stack = true)
    (members : List (Option Token × Draft)) (t : Token) :
    (stepKey members stack t).isObject = true := by
  have hhalt (why : Fault) (k : Option Token) :
      (halt why (.object members k :: stack) .noValue).isObject = true :=
    (isObject_halt why _ _).trans h
  cases t with
  | text q =>
    obtain ⟨pieces, fault⟩ := q
    cases fault with
    | none => exact h
    | some why => exact hhalt why _
  | _ => exact hhalt .malformed _

/-- An object that has been opened stays one. -/
theorem isObject_step {p : Progress} (h : p.isObject = true) (t : Token) :
    (p.step t).isObject = true := by
  cases p with
  | value stack => exact isObject_stepValue h t
  | firstItem stack =>
    by_cases hclose : t = .closeArray
    · rw [hclose]
      exact h
    · rw [step_firstItem stack hclose]
      have hframe : isObjectAround false (.array [] :: stack) = true := h
      exact isObject_stepValue hframe t
  | firstKey stack =>
    by_cases hclose : t = .closeObject
    · rw [hclose]
      exact h
    · rw [step_firstKey stack hclose]
      exact isObject_stepKey h [] t
  | key members stack => exact isObject_stepKey h members t
  | colon members k stack =>
    cases t with
    | colon => exact h
    | _ => exact (isObject_halt _ _ _).trans h
  | after d stack =>
    cases stack with
    | nil => exact h
    | cons f stack =>
      cases f <;> cases t <;> first | exact h | exact (isObject_halt _ _ _).trans h
  | stopped doc => exact h

theorem isObject_foldl {p : Progress} (h : p.isObject = true) (ts : List Token) :
    (ts.foldl step p).isObject = true := by
  induction ts generalizing p with
  | nil => exact h
  | cons t ts ih => exact ih (isObject_step h t)

/-- Nothing stands behind the value of a text that is read to its end. -/
theorem eq_of_foldl_after {d e : Draft} {ts : List Token}
    (h : ts.foldl step (.after d []) = .after e []) : ts = [] ∧ e = d := by
  cases ts with
  | nil => exact ⟨rfl, (Progress.after.inj h).1.symm⟩
  | cons t ts =>
    have hstop : (t :: ts).foldl step (.after d []) = .stopped ⟨d, true⟩ := foldl_stopped _ ts
    rw [hstop] at h
    contradiction

/-- The first token of a text opens an array or an object, or else it is the whole value. -/
theorem tokens_of_readsAs {s : List Char} {d : Draft} (h : ReadsAs s d) :
    (∃ ts, Token.scanAll [] s = .openArray :: ts ∧
      ts.foldl step (.firstItem []) = .after d []) ∨
    (∃ ts, Token.scanAll [] s = .openObject :: ts ∧
      ts.foldl step (.firstKey []) = .after d []) ∨
    ∃ t, Token.scanAll [] s = [t] ∧ d = .leaf (some t) := by
  have hread := readsAs_iff.1 h
  unfold read at hread
  cases hts : Token.scanAll [] s with
  | nil =>
    rw [hts] at hread
    contradiction
  | cons t ts =>
    rw [hts, List.foldl_cons] at hread
    by_cases harray : t = .openArray
    · subst harray
      exact .inl ⟨ts, rfl, hread⟩
    by_cases hobject : t = .openObject
    · subst hobject
      exact .inr (.inl ⟨ts, rfl, hread⟩)
    change ts.foldl step (stepValue [] t) = _ at hread
    rw [stepValue_leaf [] harray hobject] at hread
    cases hfault : t.skipFault with
    | none =>
      rw [hfault] at hread
      obtain ⟨rfl, rfl⟩ := eq_of_foldl_after hread
      exact .inr (.inr ⟨t, rfl, rfl⟩)
    | some why =>
      have hstop := foldl_stopped ⟨.leaf (some t), false⟩ ts
      rw [hfault] at hread
      change ts.foldl step (.stopped ⟨.leaf (some t), false⟩) = _ at hread
      rw [hstop] at hread
      contradiction

/-- A text that is read as an array starts with its bracket. -/
theorem openArray_of_readsAs {s : List Char} {ds : List Draft}
    (h : ReadsAs s (.array ds none)) :
    ∃ ts, Token.scanAll [] s = .openArray :: ts ∧
      ts.foldl step (.firstItem []) = .after (.array ds none) [] := by
  rcases tokens_of_readsAs h with harray | ⟨ts, -, hread⟩ | ⟨t, -, hleaf⟩
  · exact harray
  · have hobject := isObject_foldl (p := .firstKey []) rfl ts
    rw [hread] at hobject
    contradiction
  · contradiction

end Progress

end SpanWire.Json
