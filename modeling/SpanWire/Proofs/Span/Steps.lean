import SpanWire.Proofs.Tags
import SpanWire.Span

/-!
Spans after a run of steps. A step sets one slot of a span, and every key of the tags is a slot of
its own. Except for the annotations, which add up, the last step for a slot decides what becomes of
it, so that steps only need to keep their order slot by slot.
-/
namespace SpanWire.Span

/-- What a step sets. -/
inductive Slot
  | parentId
  | kind
  | name
  | timestamp
  | duration
  | localEndpoint
  | remoteEndpoint
  | annotations
  | tag (key : String)
  | debug
  | shared
  deriving DecidableEq

abbrev Slot.Value : Slot → Type
  | parentId => SpanId
  | kind => Kind
  | name => String
  | timestamp => UInt64
  | duration => UInt64
  | localEndpoint => Endpoint
  | remoteEndpoint => Endpoint
  | annotations => Annotation
  | tag _ => String
  | debug => Bool
  | shared => Bool

namespace Step

def slot : Step → Slot
  | parentId _ => .parentId
  | kind _ => .kind
  | name _ => .name
  | timestamp _ => .timestamp
  | duration _ => .duration
  | localEndpoint _ => .localEndpoint
  | remoteEndpoint _ => .remoteEndpoint
  | annotate _ _ => .annotations
  | tag key _ => .tag key
  | debug _ => .debug
  | shared _ => .shared

def value : (st : Step) → st.slot.Value
  | parentId v => v
  | kind v => v
  | name v => v
  | timestamp v => v
  | duration v => v
  | localEndpoint v => v
  | remoteEndpoint v => v
  | annotate t text => Annotation.mk t text
  | tag _ v => v
  | debug v => v
  | shared v => v

/-- The value that a step gives a slot, if this is the one it sets. -/
def given? (slot : Slot) (st : Step) : Option slot.Value :=
  if h : st.slot = slot then some (h ▸ st.value) else none

theorem given?_of_ne {slot : Slot} {st : Step} (h : st.slot ≠ slot) : st.given? slot = none :=
  dif_neg h

/-- The entry that a step puts into the tags. -/
def entry? : Step → Option (String × String)
  | tag key value => some (key, value)
  | _ => none

theorem given?_tag (key : String) (st : Step) :
    st.given? (.tag key) = st.entry?.bind (valueUnder? key) := by
  cases st with
  | tag k value =>
    change _ = valueUnder? key (k, value)
    rw [valueUnder?]
    split
    · next hkey =>
      subst hkey
      exact dif_pos rfl
    · next hkey => exact given?_of_ne fun hslot => hkey (Slot.tag.inj hslot)
  | _ => rfl

/-- Steps for other slots give a slot nothing. -/
theorem given?_of_not (slot : Slot) (st : Step) (h : decide (st.slot = slot) = false) :
    st.given? slot = none :=
  given?_of_ne (of_decide_eq_false h)

end Step

/-- The value that is given to a slot last. -/
def last (slot : Slot) (steps : List Step) : Option slot.Value :=
  lastGiven (Step.given? slot) steps

def run (s : Span) (steps : List Step) : Span :=
  steps.foldl apply s

/-- What a step makes of each part. -/
theorem apply_eq (s : Span) (st : Step) :
    s.apply st = {
      traceId := s.traceId
      parentId := (st.given? .parentId).elim s.parentId some
      id := s.id
      kind := (st.given? .kind).elim s.kind some
      name := (st.given? .name).elim s.name some
      timestamp := (st.given? .timestamp).elim s.timestamp fun v => v
      duration := (st.given? .duration).elim s.duration fun v => v
      localEndpoint := (st.given? .localEndpoint).elim s.localEndpoint some
      remoteEndpoint := (st.given? .remoteEndpoint).elim s.remoteEndpoint some
      annotations := (st.given? .annotations).elim s.annotations (s.annotations ++ [·])
      tags := st.entry?.elim s.tags fun e => s.tags.insert e.1 e.2
      debug := (st.given? .debug).elim s.debug fun v => v
      shared := (st.given? .shared).elim s.shared fun v => v } := by
  cases st <;> rfl

/-- What steps make of a span: each slot has what it was given last, or else what it had before, and
the annotations are added in the order in which they were given. -/
structure Gathers (start : Span) (steps : List Step) (s : Span) : Prop where
  traceId : s.traceId = start.traceId
  parentId : s.parentId = (last .parentId steps).elim start.parentId some
  id : s.id = start.id
  kind : s.kind = (last .kind steps).elim start.kind some
  name : s.name = (last .name steps).elim start.name some
  timestamp : s.timestamp = (last .timestamp steps).elim start.timestamp fun v => v
  duration : s.duration = (last .duration steps).elim start.duration fun v => v
  localEndpoint : s.localEndpoint = (last .localEndpoint steps).elim start.localEndpoint some
  remoteEndpoint : s.remoteEndpoint = (last .remoteEndpoint steps).elim start.remoteEndpoint some
  annotations : s.annotations = start.annotations ++ steps.filterMap (Step.given? .annotations)
  tags : ∀ key, s.tags.get? key = (last (.tag key) steps).elim (start.tags.get? key) some
  debug : s.debug = (last .debug steps).elim start.debug fun v => v
  shared : s.shared = (last .shared steps).elim start.shared fun v => v

theorem ids_run (s : Span) (steps : List Step) :
    (s.run steps).traceId = s.traceId ∧ (s.run steps).id = s.id := by
  induction steps generalizing s with
  | nil => exact ⟨rfl, rfl⟩
  | cons st steps ih =>
    have htrace : (s.apply st).traceId = s.traceId := by rw [apply_eq]
    have hid : (s.apply st).id = s.id := by rw [apply_eq]
    rw [← htrace, ← hid]
    exact ih (s.apply st)

theorem annotations_run (s : Span) (steps : List Step) :
    (s.run steps).annotations = s.annotations ++ steps.filterMap (Step.given? .annotations) := by
  induction steps generalizing s with
  | nil => exact (List.append_nil _).symm
  | cons st steps ih =>
    have hstep : (s.apply st).annotations =
        (st.given? .annotations).elim s.annotations (s.annotations ++ [·]) :=
      congrArg annotations (apply_eq s st)
    refine (ih (s.apply st)).trans ?_
    rw [hstep]
    cases hst : st.given? .annotations with
    | none => rw [List.filterMap_cons_none hst, Option.elim_none]
    | some a =>
      rw [List.filterMap_cons_some hst, Option.elim_some, List.append_assoc, List.singleton_append]

theorem get?_tags_apply (s : Span) (st : Step) (key : String) :
    (s.apply st).tags.get? key = (st.given? (.tag key)).elim (s.tags.get? key) some := by
  rw [apply_eq, Step.given?_tag]
  cases st.entry? with
  | none => rfl
  | some e =>
    simp only [Option.elim_some, Option.bind_some, Tags.get?_insert, valueUnder?]
    split <;> rfl

/-- A run gathers what its steps give. -/
theorem gathers_run (start : Span) (steps : List Step) :
    Gathers start steps (start.run steps) where
  traceId := (ids_run start steps).1
  parentId := foldl_lastGiven parentId (fun s st => congrArg _ (apply_eq s st)) start steps
  id := (ids_run start steps).2
  kind := foldl_lastGiven kind (fun s st => congrArg _ (apply_eq s st)) start steps
  name := foldl_lastGiven name (fun s st => congrArg _ (apply_eq s st)) start steps
  timestamp := foldl_lastGiven timestamp (fun s st => congrArg _ (apply_eq s st)) start steps
  duration := foldl_lastGiven duration (fun s st => congrArg _ (apply_eq s st)) start steps
  localEndpoint :=
    foldl_lastGiven localEndpoint (fun s st => congrArg _ (apply_eq s st)) start steps
  remoteEndpoint :=
    foldl_lastGiven remoteEndpoint (fun s st => congrArg _ (apply_eq s st)) start steps
  annotations := annotations_run start steps
  tags key := foldl_lastGiven (fun s : Span => s.tags.get? key)
    (fun s st => get?_tags_apply s st key) start steps
  debug := foldl_lastGiven debug (fun s st => congrArg _ (apply_eq s st)) start steps
  shared := foldl_lastGiven shared (fun s st => congrArg _ (apply_eq s st)) start steps

namespace Gathers

variable {start s t : Span} {xs ys steps : List Step}

/-- What the steps of each slot are decides what they make of a span. -/
theorem congr (h : ∀ slot, xs.filter (·.slot = slot) = ys.filter (·.slot = slot))
    (hs : Gathers start xs s) : Gathers start ys s := by
  have hlast (slot : Slot) : last slot xs = last slot ys := by
    unfold last
    rw [← lastGiven_filter (Step.given?_of_not slot), h slot,
      lastGiven_filter (Step.given?_of_not slot)]
  have hannotations :
      xs.filterMap (Step.given? .annotations) = ys.filterMap (Step.given? .annotations) := by
    rw [← filterMap_filter (Step.given?_of_not .annotations), h .annotations,
      filterMap_filter (Step.given?_of_not .annotations)]
  obtain ⟨htrace, hparent, hid, hkind, hname, htimestamp, hduration, hlocal, hremote, hevents,
    htags, hdebug, hshared⟩ := hs
  simp only [hlast, hannotations] at *
  exact ⟨htrace, hparent, hid, hkind, hname, htimestamp, hduration, hlocal, hremote, hevents,
    htags, hdebug, hshared⟩

/-- Steps make one thing only of a span. -/
theorem unique (hs : Gathers start steps s) (ht : Gathers start steps t) : s = t := by
  have htags : s.tags = t.tags := Tags.ext_get? fun key => (hs.tags key).trans (ht.tags key).symm
  obtain ⟨htrace, hparent, hid, hkind, hname, htimestamp, hduration, hlocal, hremote, hevents, -,
    hdebug, hshared⟩ := hs
  obtain ⟨htrace', hparent', hid', hkind', hname', htimestamp', hduration', hlocal', hremote',
    hevents', -, hdebug', hshared'⟩ := ht
  cases s
  cases t
  simp_all only

end Gathers

theorem run_congr {xs ys : List Step}
    (h : ∀ slot, xs.filter (·.slot = slot) = ys.filter (·.slot = slot)) (s : Span) :
    s.run xs = s.run ys :=
  ((gathers_run s xs).congr h).unique (gathers_run s ys)

end SpanWire.Span
