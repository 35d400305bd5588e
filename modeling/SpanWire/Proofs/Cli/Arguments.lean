import Mathlib.Data.List.Forall2
import SpanWire.Cli.Arguments
import SpanWire.Proofs.Text.Digits

/-!
The threshold is read apart from all else on a command line: command lines that differ in nothing
but the values of their thresholds are understood as the same command, or neither is understood.
-/
namespace SpanWire.Cli

/-- Whether a text may be given as a threshold. -/
def IsThreshold (text : String) : Prop :=
  (Text.readUInt64? text.toList).isSome = true

instance (text : String) : Decidable (IsThreshold text) :=
  inferInstanceAs (Decidable (_ = true))

/-- Command lines that differ at most in their thresholds, each of which stands behind an equals
sign or is an argument of its own. -/
inductive SameButThreshold : List String → List String → Prop
  | nil : SameButThreshold [] []
  | same (argument : String) {rest rest' : List String} :
    SameButThreshold rest rest' → SameButThreshold (argument :: rest) (argument :: rest')
  | attached {t t' : String} {rest rest' : List String} :
    IsThreshold t → IsThreshold t' → SameButThreshold rest rest' →
    SameButThreshold (("--large-field-threshold=" ++ t) :: rest)
      (("--large-field-threshold=" ++ t') :: rest')
  | apart {t t' : String} {rest rest' : List String} :
    IsThreshold t → IsThreshold t' → SameButThreshold rest rest' →
    SameButThreshold ("--large-field-threshold" :: t :: rest)
      ("--large-field-threshold" :: t' :: rest')

theorem rel_bind {α β γ δ : Type} {r : α → β → Prop} {q : γ → δ → Prop} {o : Option α}
    {o' : Option β} {f : α → Option γ} {g : β → Option δ} (h : Option.Rel r o o')
    (hfg : ∀ a b, r a b → Option.Rel q (f a) (g b)) : Option.Rel q (o.bind f) (o'.bind g) := by
  cases h with
  | none => exact .none
  | some hab => exact hfg _ _ hab

theorem ofArgument_long {argument : String} {name rest : List Char} (hname : name ≠ [])
    (hstop : '=' ∉ name)
    (h : argument.toList = '-' :: '-' :: (name ++ '=' :: rest)) :
    Word.ofArgument argument = .switch true (String.ofList name) (some (String.ofList rest)) := by
  have hkeep : ∀ c ∈ name, decide (c ≠ '=') = true := fun c hc =>
    decide_eq_true (ne_of_mem_of_not_mem hc hstop)
  have hends : ∀ c ∈ ('=' :: rest).head?, decide (c ≠ '=') = false := by simp
  obtain ⟨htake, hdrop⟩ := Text.takeWhile_append_of_stop hkeep hends
  cases name with
  | nil => contradiction
  | cons c cs =>
    unfold Word.ofArgument
    rw [h]
    simp only [List.cons_append] at htake hdrop ⊢
    rw [htake, hdrop]

theorem ofArgument_attached (t : String) :
    Word.ofArgument ("--large-field-threshold=" ++ t) =
      .switch true "large-field-threshold" (some t) := by
  have hchars : ("--large-field-threshold=" ++ t).toList =
      '-' :: '-' :: ("large-field-threshold".toList ++ '=' :: t.toList) := by
    rw [String.toList_append]
    rfl
  rw [ofArgument_long (by decide) (by decide) hchars, String.ofList_toList, String.ofList_toList]

theorem ofArgument_apart :
    Word.ofArgument "--large-field-threshold" = .switch true "large-field-threshold" none := by
  decide

theorem ofArgument_plain {argument : String} (h : argument.toList.head? ≠ some '-') :
    Word.ofArgument argument = .plain := by
  unfold Word.ofArgument
  split <;> simp_all

theorem ofArgument_of_isThreshold {t : String} (h : IsThreshold t) :
    Word.ofArgument t = .plain := by
  refine ofArgument_plain fun hhyphen => ?_
  cases hchars : t.toList with
  | nil => rw [hchars] at hhyphen; contradiction
  | cons c cs =>
    rw [hchars] at hhyphen
    obtain rfl : c = '-' := Option.some.inj hhyphen
    unfold IsThreshold Text.readUInt64? at h
    rw [hchars] at h
    simp [Text.isDigit] at h

/-- The value that a switch takes, attached or as the next argument, and the arguments that are
left. -/
def takeValue (given : Given) (s : Switch) (value : Option String) (rest : List String) :
    Option (String × List String) :=
  if s.takesValue then
    match value with
    | some v => if Given.isSound (given ++ [(s, v)]) then some (v, rest) else none
    | none =>
      match rest with
      | [] => none
      | v :: rest => if Word.ofArgument v = .plain then some (v, rest) else none
  else if value.isSome then none
  else some ("", rest)

theorem readSwitches_switch {allowed : List Switch} {given : Given} {argument : String}
    {rest : List String} {long : Bool} {name : String} {value : Option String}
    (h : Word.ofArgument argument = .switch long name value) :
    readSwitches allowed given (argument :: rest) =
      match allowed.find? (·.isNamed long name) with
      | none => none
      | some s =>
        if !given.isSound then none
        else if s = .help then if long && value.isSome then none else some .help
        else (takeValue given s value rest).bind fun r =>
          readSwitches allowed (given ++ [(s, r.1)]) r.2 := by
  rw [readSwitches.eq_def]
  simp only [h]
  cases allowed.find? (·.isNamed long name) with
  | none => rfl
  | some s =>
    dsimp only
    split
    · rfl
    split
    · rfl
    unfold takeValue
    split
    · cases value with
      | some v =>
        dsimp only
        split <;> rfl
      | none =>
        cases rest with
        | nil => rfl
        | cons v rest =>
          dsimp only
          split <;> rfl
    · split <;> rfl

theorem readSwitches_word {allowed : List Switch} {given : Given} {argument : String}
    {rest : List String}
    (h : Word.ofArgument argument = .separator ∨ Word.ofArgument argument = .plain) :
    readSwitches allowed given (argument :: rest) = some (.switches given (argument :: rest)) := by
  rw [readSwitches.eq_def]
  rcases h with h | h <;> simp only [h]

/-- What one switch may be given in either of two runs. -/
def SameGiven (e e' : Switch × String) : Prop :=
  e.1 = e'.1 ∧ (e.2 = e'.2 ∨ e.1 = .threshold ∧ IsThreshold e.2 ∧ IsThreshold e'.2)

/-- Switches in the same order, with the same values but for thresholds. -/
abbrev SameGivens (given given' : Given) : Prop :=
  List.Forall₂ SameGiven given given'

theorem SameGiven.accepts_eq {e e' : Switch × String} (h : SameGiven e e') :
    e.1.accepts e.2 = e'.1.accepts e'.2 := by
  obtain ⟨hswitch, hvalue | ⟨hthreshold, h, h'⟩⟩ := h
  · rw [hswitch, hvalue]
  · have haccepts (t : String) (ht : IsThreshold t) : Switch.threshold.accepts t = true := ht
    rw [← hswitch, hthreshold, haccepts _ h, haccepts _ h']

/-- Texts that the environment may have for a threshold: the same ones, or none that is not one. -/
def SameThreshold (t t' : Option String) : Prop :=
  t = t' ∨ (∀ x ∈ t, IsThreshold x) ∧ ∀ x ∈ t', IsThreshold x

theorem SameThreshold.iff {t t' : Option String} (h : SameThreshold t t') :
    (∀ x ∈ t, IsThreshold x) ↔ ∀ x ∈ t', IsThreshold x := by
  rcases h with rfl | ⟨ht, ht'⟩
  · exact Iff.rfl
  · exact iff_of_true ht ht'

namespace SameGivens

variable {given given' : Given}

theorem append (h : SameGivens given given') {e e' : Switch × String} (he : SameGiven e e') :
    SameGivens (given ++ [e]) (given' ++ [e']) :=
  List.rel_append h (.cons he .nil)

theorem has_eq (h : SameGivens given given') (s : Switch) : given.has s = given'.has s := by
  induction h with
  | nil => rfl
  | cons he _ ih =>
    unfold Given.has at ih ⊢
    rw [List.any_cons, List.any_cons, ih, he.1]

theorem isSound_eq (h : SameGivens given given') : given.isSound = given'.isSound := by
  induction h with
  | nil => rfl
  | @cons e e' given given' he h ih =>
    rw [Given.isSound, Given.isSound, he.accepts_eq, he.1, has_eq h, ih]

theorem value?_eq (h : SameGivens given given') {s : Switch} (hs : s ≠ .threshold) :
    given.value? s = given'.value? s := by
  induction h with
  | nil => rfl
  | @cons e e' _ _ he _ ih =>
    unfold Given.value? at ih ⊢
    rw [List.find?_cons, List.find?_cons, he.1]
    by_cases hhere : e'.1 = s
    · have hvalue : e.2 = e'.2 :=
        he.2.resolve_right fun hbad => hs (hhere.symm.trans (he.1.symm.trans hbad.1))
      simp [hhere, hvalue]
    · simpa [hhere] using ih

theorem value?_threshold (h : SameGivens given given') :
    Option.Rel (fun v v' => v = v' ∨ IsThreshold v ∧ IsThreshold v')
      (given.value? .threshold) (given'.value? .threshold) := by
  induction h with
  | nil => exact .none
  | @cons e e' _ _ he _ ih =>
    unfold Given.value? at ih ⊢
    rw [List.find?_cons, List.find?_cons, he.1]
    by_cases hhere : e'.1 = .threshold
    · simpa [hhere] using he.2.imp_right And.right
    · simpa [hhere] using ih

end SameGivens

namespace SameButThreshold

variable {args args' : List String}

theorem refl (args : List String) : SameButThreshold args args := by
  induction args with
  | nil => exact .nil
  | cons argument rest ih => exact .same argument ih

/-- Values of a switch that are the same in both runs, with the arguments behind them. -/
def SameTaken (s : Switch) (bound : Nat) (r r' : String × List String) : Prop :=
  SameGiven (s, r.1) (s, r'.1) ∧ SameButThreshold r.2 r'.2 ∧ r.2.length ≤ bound

variable {given given' : Given} {allowed : List Switch}

/-- Values that are attached are taken, or are judged alike. -/
theorem takeValue_rel_attached (hgiven : SameGivens given given')
    (h : SameButThreshold args args') {s : Switch} {v v' : String}
    (hvalue : SameGiven (s, v) (s, v')) :
    Option.Rel (SameTaken s args.length) (takeValue given s (some v) args)
      (takeValue given' s (some v') args') := by
  unfold takeValue
  split
  · dsimp only
    rw [(hgiven.append hvalue).isSound_eq]
    split
    · exact .some ⟨hvalue, h, Nat.le_refl _⟩
    · exact .none
  · exact .none

theorem takeValue_rel (hgiven : SameGivens given given') (h : SameButThreshold args args')
    (s : Switch) (value : Option String) :
    Option.Rel (SameTaken s args.length) (takeValue given s value args)
      (takeValue given' s value args') := by
  cases value with
  | some v => exact takeValue_rel_attached hgiven h ⟨rfl, .inl rfl⟩
  | none =>
    unfold takeValue
    split
    · cases h with
      | nil => exact .none
      | same argument h =>
        dsimp only
        split
        · exact .some ⟨⟨rfl, .inl rfl⟩, h, Nat.le_succ _⟩
        · exact .none
      | attached =>
        dsimp only
        rw [ofArgument_attached, ofArgument_attached]
        exact .none
      | apart =>
        dsimp only
        rw [ofArgument_apart]
        exact .none
    · exact .some ⟨⟨rfl, .inl rfl⟩, h, Nat.le_refl _⟩

/-- A threshold that follows its switch is taken as such. -/
theorem takeValue_threshold (given : Given) (t : String) (rest : List String) (h : IsThreshold t) :
    takeValue given .threshold none (t :: rest) = some (t, rest) := by
  unfold takeValue
  dsimp only
  rw [ofArgument_of_isThreshold h]
  rfl

theorem eq_threshold_of_find? {allowed : List Switch} {s : Switch}
    (h : allowed.find? (·.isNamed true "large-field-threshold") = some s) : s = .threshold := by
  have hname := List.find?_some h
  cases s <;> first | rfl | exact absurd hname (by decide)

/-- What is read from both command lines: the same switches, and then the same arguments; or that
help is asked for. -/
inductive SameRead : Reading → Reading → Prop
  | switches {given given' : Given} {rest rest' : List String} : SameGivens given given' →
    SameButThreshold rest rest' → SameRead (.switches given rest) (.switches given' rest')
  | help : SameRead .help .help

/-- One switch, however its value is given, as long as the arguments behind it are read alike. -/
theorem readSwitches_rel_switch {argument argument' : String} {rest rest' : List String}
    {long : Bool} {name : String} {value value' : Option String}
    (hgiven : SameGivens given given')
    (hword : Word.ofArgument argument = .switch long name value)
    (hword' : Word.ofArgument argument' = .switch long name value')
    (hattached : value.isSome = value'.isSome)
    (htake : ∀ s, allowed.find? (·.isNamed long name) = some s →
      Option.Rel (SameTaken s rest.length) (takeValue given s value rest)
        (takeValue given' s value' rest'))
    (hrest : ∀ {given given' args args'}, SameGivens given given' → SameButThreshold args args' →
      args.length ≤ rest.length →
      Option.Rel SameRead (readSwitches allowed given args) (readSwitches allowed given' args')) :
    Option.Rel SameRead (readSwitches allowed given (argument :: rest))
      (readSwitches allowed given' (argument' :: rest')) := by
  rw [readSwitches_switch hword, readSwitches_switch hword']
  cases hfind : allowed.find? (·.isNamed long name) with
  | none => exact .none
  | some s =>
    dsimp only
    rw [hgiven.isSound_eq, hattached]
    split
    · exact .none
    split
    · split
      · exact .none
      · exact .some .help
    · refine rel_bind (htake s hfind) fun r r' ⟨hvalue, hsame, hshort⟩ => ?_
      exact hrest (hgiven.append hvalue) hsame hshort

theorem readSwitches_rel (allowed : List Switch) (hgiven : SameGivens given given')
    (h : SameButThreshold args args') :
    Option.Rel SameRead (readSwitches allowed given args) (readSwitches allowed given' args') := by
  -- A switch may take two arguments, so the induction is on their number.
  induction hlength : args.length using Nat.strongRecOn generalizing given given' args args' with
  | ind n ih =>
    subst hlength
    cases h with
    | nil => exact .some (.switches hgiven .nil)
    | @same argument rest rest' h =>
      cases hword : Word.ofArgument argument with
      | separator =>
        rw [readSwitches_word (.inl hword), readSwitches_word (.inl hword)]
        exact .some (.switches hgiven (.same argument h))
      | plain =>
        rw [readSwitches_word (.inr hword), readSwitches_word (.inr hword)]
        exact .some (.switches hgiven (.same argument h))
      | switch long name value =>
        refine readSwitches_rel_switch hgiven hword hword rfl
          (fun s _ => takeValue_rel hgiven h s value) ?_
        exact fun hg hsame hshort => ih _ (Nat.lt_succ_of_le hshort) hg hsame rfl
    | @attached t t' rest rest' ht ht' h =>
      refine readSwitches_rel_switch hgiven (ofArgument_attached t) (ofArgument_attached t') rfl
        (fun s hs => ?_) fun hg hsame hshort => ih _ (Nat.lt_succ_of_le hshort) hg hsame rfl
      obtain rfl := eq_threshold_of_find? hs
      exact takeValue_rel_attached hgiven h ⟨rfl, .inr ⟨rfl, ht, ht'⟩⟩
    | @apart t t' rest rest' ht ht' h =>
      refine readSwitches_rel_switch hgiven ofArgument_apart ofArgument_apart rfl
        (fun s hs => ?_) fun hg hsame hshort => ih _ (Nat.lt_succ_of_le hshort) hg hsame rfl
      obtain rfl := eq_threshold_of_find? hs
      rw [takeValue_threshold given t rest ht, takeValue_threshold given' t' rest' ht']
      exact .some ⟨⟨rfl, .inr ⟨rfl, ht, ht'⟩⟩, h, Nat.le_succ _⟩

theorem attached_ne {t text : String} (h : text.toList.take 3 ≠ ['-', '-', 'l']) :
    "--large-field-threshold=" ++ t ≠ text := by
  rintro rfl
  rw [String.toList_append] at h
  exact h rfl

/-- A text that stands neither for a verb nor for help. -/
structure NoWord (text : String) : Prop where
  noVerb : Verb.ofName? text = none
  noHelp : text ≠ "help"

theorem noWord_attached (t : String) : NoWord ("--large-field-threshold=" ++ t) where
  noVerb := by
    unfold Verb.ofName?
    split
    · next h => exact absurd h (attached_ne (by decide))
    · next h => exact absurd h (attached_ne (by decide))
    · rfl
  noHelp := attached_ne (by decide)

theorem noWord_apart : NoWord "--large-field-threshold" :=
  ⟨rfl, by decide⟩

/-- Where one command line has a word, the other has the same one. -/
theorem word_cases {name name' : String} (h : SameButThreshold (name :: args) (name' :: args')) :
    name = name' ∧ SameButThreshold args args' ∨ NoWord name ∧ NoWord name' := by
  cases h with
  | same _ h => exact .inl ⟨rfl, h⟩
  | attached => exact .inr ⟨noWord_attached _, noWord_attached _⟩
  | apart => exact .inr ⟨noWord_apart, noWord_apart⟩

theorem eq_nil_iff (h : SameButThreshold args args') : args = [] ↔ args' = [] := by
  cases h <;> simp

theorem eq_separator_iff (h : SameButThreshold args args') : args = ["--"] ↔ args' = ["--"] := by
  cases h with
  | nil => exact Iff.rfl
  | same argument h => rw [List.cons.injEq, List.cons.injEq, h.eq_nil_iff]
  | attached =>
    have hne (t : String) : "--large-field-threshold=" ++ t ≠ "--" := attached_ne (by decide)
    simp [hne]
  | apart => simp

theorem ofWords?_of_noWord {name : String} (h : NoWord name) (words : List String) :
    Topic.ofWords? (name :: words) = none := by
  cases words with
  | nil =>
    change (if name = "help" then _ else _) = none
    rw [if_neg h.noHelp, h.noVerb, Option.map_none]
  | cons word words => rfl

/-- Help is asked for on the same topic. -/
theorem ofWords?_eq (h : SameButThreshold args args') :
    Topic.ofWords? args = Topic.ofWords? args' := by
  cases h with
  | nil => rfl
  | @same name rest rest' h =>
    cases h with
    | nil => rfl
    | same | attached | apart => rfl
  | attached => rw [ofWords?_of_noWord (noWord_attached _), ofWords?_of_noWord (noWord_attached _)]
  | apart => rfl

end SameButThreshold

theorem readThreshold_isSome {given : Given} {ambient : Option String} :
    (readThreshold given ambient).isSome = true ↔
      ∀ x ∈ (given.value? .threshold).or ambient, IsThreshold x := by
  unfold readThreshold
  cases (given.value? .threshold).or ambient with
  | none => simp
  | some text => simp [IsThreshold]

/-- A threshold is read on both sides, or on neither. -/
theorem readThreshold_rel {given given' : Given} {ambient ambient' : Option String}
    (hgiven : SameGivens given given') (hambient : SameThreshold ambient ambient') :
    Option.Rel (fun _ _ => True) (readThreshold given ambient) (readThreshold given' ambient') := by
  have hsame : (∀ x ∈ (given.value? .threshold).or ambient, IsThreshold x) ↔
      ∀ x ∈ (given'.value? .threshold).or ambient', IsThreshold x := by
    have hvalues := hgiven.value?_threshold
    generalize given.value? .threshold = v at hvalues ⊢
    generalize given'.value? .threshold = v' at hvalues ⊢
    cases hvalues with
    | none => exact hambient.iff
    | some hvalue =>
      refine SameThreshold.iff (hvalue.imp (congrArg some) fun ⟨hfirst, hsecond⟩ => ?_)
      simpa using ⟨hfirst, hsecond⟩
  rw [← readThreshold_isSome, ← readThreshold_isSome] at hsame
  cases hfirst : readThreshold given ambient <;>
    cases hsecond : readThreshold given' ambient' <;>
    simp_all

theorem Arguments.ofGiven?_rel (verb : Verb) {outer outer' inner inner' : Given}
    {ambient ambient' : Option String} (houter : SameGivens outer outer')
    (hinner : SameGivens inner inner') (hambient : SameThreshold ambient ambient') :
    Option.Rel (fun a a' => a.command = a'.command) (ofGiven? verb outer inner ambient)
      (ofGiven? verb outer' inner' ambient') := by
  unfold ofGiven?
  rw [houter.isSound_eq, hinner.isSound_eq]
  split
  · exact .none
  · refine rel_bind (readThreshold_rel houter hambient) fun _ _ _ => ?_
    refine rel_bind (readThreshold_rel hinner hambient) fun _ _ _ => ?_
    rw [hinner.value?_eq (by decide), hinner.value?_eq (by decide), hinner.has_eq .hex]
    exact .some rfl

/-- Requests for the same command, or for help on the same topic. -/
inductive SameRequest : Request → Request → Prop
  | run {a a' : Arguments} : a.command = a'.command → SameRequest (.run a) (.run a')
  | help (topic : Topic) : SameRequest (.help topic) (.help topic)

namespace Request

variable {ambient ambient' : Option String} {args args' : List String}

theorem ofVerb?_rel {outer outer' : Given} (verb : Verb) (houter : SameGivens outer outer')
    (hambient : SameThreshold ambient ambient') (h : SameButThreshold args args') :
    Option.Rel SameRequest (ofVerb? ambient outer verb args)
      (ofVerb? ambient' outer' verb args') := by
  unfold ofVerb?
  refine rel_bind (h.readSwitches_rel _ .nil) fun r r' hread => ?_
  cases hread with
  | help => exact .some (.help _)
  | @switches inner inner' rest rest' hinner hrest =>
    have hend : rest ≠ [] ∧ rest ≠ ["--"] ↔ rest' ≠ [] ∧ rest' ≠ ["--"] :=
      and_congr hrest.eq_nil_iff.not hrest.eq_separator_iff.not
    dsimp only
    by_cases hmore : rest ≠ [] ∧ rest ≠ ["--"]
    · rw [if_pos hmore, if_pos (hend.1 hmore)]
      exact .none
    · rw [if_neg hmore, if_neg (mt hend.2 hmore)]
      have hgiven := Arguments.ofGiven?_rel verb houter hinner hambient
      generalize Arguments.ofGiven? verb outer inner ambient = o at hgiven ⊢
      generalize Arguments.ofGiven? verb outer' inner' ambient' = o' at hgiven ⊢
      cases hgiven with
      | none => exact .none
      | some hcommand => exact .some (.run hcommand)

/-- Whoever understands one of the command lines understands the other as the same request. -/
theorem parse_rel (hambient : SameThreshold ambient ambient') (h : SameButThreshold args args') :
    Option.Rel SameRequest (parse ambient args) (parse ambient' args') := by
  unfold parse
  refine rel_bind (h.readSwitches_rel _ .nil) fun r r' hread => ?_
  cases hread with
  | help => exact .some (.help _)
  | @switches outer outer' rest rest' houter hrest =>
    cases rest with
    | nil =>
      obtain rfl := hrest.eq_nil_iff.1 rfl
      exact .none
    | cons name rest =>
      cases rest' with
      | nil => cases hrest
      | cons name' rest' =>
        dsimp only
        rcases hrest.word_cases with ⟨rfl, hbehind⟩ | ⟨hname, hname'⟩
        · split
          · rw [hbehind.ofWords?_eq]
            cases Topic.ofWords? rest' with
            | none => exact .none
            | some topic => exact .some (.help topic)
          · cases Verb.ofName? name with
            | none => exact .none
            | some verb => exact ofVerb?_rel verb houter hambient hbehind
        · rw [if_neg hname.noHelp, if_neg hname'.noHelp, hname.noVerb, hname'.noVerb]
          exact .none

end Request

theorem Arguments.parse_eq_some {environment : String → Option String} {args : List String}
    {a : Arguments} :
    parse environment args = some a ↔
      Request.parse (environment thresholdVariable) args = some (.run a) := by
  unfold parse
  split <;> simp_all

/-- Whoever understands one of the command lines understands the other as the same command. -/
theorem Arguments.parse_rel {environment environment' : String → Option String}
    {args args' : List String}
    (henvironment : SameThreshold (environment thresholdVariable) (environment' thresholdVariable))
    (h : SameButThreshold args args') :
    Option.Rel (fun a a' => a.command = a'.command) (parse environment args)
      (parse environment' args') := by
  have hrequest := Request.parse_rel henvironment h
  unfold parse
  generalize Request.parse (environment thresholdVariable) args = r at hrequest ⊢
  generalize Request.parse (environment' thresholdVariable) args' = r' at hrequest ⊢
  cases hrequest with
  | none => exact .none
  | some hsame =>
    cases hsame with
    | run hcommand => exact .some hcommand
    | help topic => exact .none

end SpanWire.Cli
