import SpanWire.Endpoint.Json
import SpanWire.Proofs.Endpoint
import SpanWire.Proofs.LastGiven

/-!
Endpoints after a run of steps. The last step that gives a part decides what becomes of it, and
where an address goes is decided by the address.
-/
namespace SpanWire

namespace Endpoint

/-- Where an address is kept. -/
def fieldOfAddress : Address → Field
  | .v4 _ => .ipv4
  | .v6 a => if a.mapped?.isSome then .ipv4 else .ipv6

/-- The IPv4 address that an address is or stands for. -/
def ipv4OfAddress? : Address → Option IPv4
  | .v4 a => some a
  | .v6 a => a.mapped?

/-- The IPv6 address that an address is, unless it stands for one of IPv4. -/
def ipv6OfAddress? : Address → Option IPv6
  | .v4 _ => none
  | .v6 a => if a.mapped?.isSome then none else some a

namespace Step

def serviceName? : Step → Option String
  | .serviceName name => some name
  | _ => none

/-- The address that a step gives in whatever way, if it is one. -/
def address? : Step → Option Address
  | .ip text => Address.ofText? text
  | .ipv4 a => some (.v4 a)
  | .ipv6 a => some (.v6 a)
  | _ => none

def ipv4? (st : Step) : Option IPv4 :=
  st.address?.bind ipv4OfAddress?

def ipv6? (st : Step) : Option IPv6 :=
  st.address?.bind ipv6OfAddress?

def port? : Step → Option UInt16
  | .port number => some number
  | _ => none

/-- The field that a step sets. A text that is no address sets none. -/
def field? : Step → Option Field
  | .serviceName _ => some .serviceName
  | .port _ => some .port
  | st => st.address?.map fieldOfAddress

end Step

/-- The endpoint after a step, and as before where the step fails. -/
def attempt (e : Endpoint) (st : Step) : Endpoint :=
  match e.apply st with
  | .ok e' => e'
  | .error _ => e

/-- The endpoint after some steps, of which those that fail are skipped. -/
def run (e : Endpoint) (steps : List Step) : Endpoint :=
  steps.foldl attempt e

/-- Only a text that is no address makes a step fail. -/
theorem apply_eq_error_iff {e : Endpoint} {st : Step} {error : AddressError} :
    e.apply st = .error error ↔
      ∃ text, st = .ip text ∧ Address.ofText? text = none ∧ error = ⟨text⟩ := by
  cases st with
  | ip text =>
    rw [apply, withAddressText]
    cases htext : Address.ofText? text with
    | some a =>
      constructor
      · intro herror
        contradiction
      · rintro ⟨other, hother, hnone, -⟩
        obtain rfl := Step.ip.inj hother
        rw [htext] at hnone
        contradiction
    | none =>
      constructor
      · intro herror
        exact ⟨text, rfl, htext, (Except.error.inj herror).symm⟩
      · rintro ⟨other, hother, -, rfl⟩
        rw [Step.ip.inj hother]
  | _ =>
    constructor
    · intro herror
      contradiction
    · rintro ⟨text, htext, -⟩
      contradiction

theorem withAddress_eq (e : Endpoint) (a : Address) :
    e.withAddress a = { e with
      ipv4 := (ipv4OfAddress? a).elim e.ipv4 some
      ipv6 := (ipv6OfAddress? a).elim e.ipv6 some } := by
  cases a with
  | v4 a => rfl
  | v6 a =>
    rw [withAddress, withIPv6, ipv4OfAddress?, ipv6OfAddress?]
    cases a.mapped? <;> rfl

/-- What a step makes of each part. -/
theorem attempt_eq (e : Endpoint) (st : Step) :
    e.attempt st = {
      serviceName := st.serviceName?.elim e.serviceName some
      ipv4 := st.ipv4?.elim e.ipv4 some
      ipv6 := st.ipv6?.elim e.ipv6 some
      port := st.port?.elim e.port fun port => if port = 0 then none else some port } := by
  cases st with
  | serviceName name => rfl
  | port port => rfl
  | ipv4 a => exact e.withAddress_eq (.v4 a)
  | ipv6 a => exact e.withAddress_eq (.v6 a)
  | ip text =>
    rw [attempt, apply, withAddressText, Step.ipv4?, Step.ipv6?, Step.address?]
    cases Address.ofText? text with
    | none => rfl
    | some a => exact e.withAddress_eq a

/-- What a run makes of each part. -/
theorem run_eq (e : Endpoint) (steps : List Step) :
    e.run steps = {
      serviceName := (lastGiven Step.serviceName? steps).elim e.serviceName some
      ipv4 := (lastGiven Step.ipv4? steps).elim e.ipv4 some
      ipv6 := (lastGiven Step.ipv6? steps).elim e.ipv6 some
      port := (lastGiven Step.port? steps).elim e.port fun port =>
        if port = 0 then none else some port } := by
  have hname := foldl_lastGiven serviceName (fun e st => congrArg _ (attempt_eq e st)) e steps
  have hipv4 := foldl_lastGiven ipv4 (fun e st => congrArg _ (attempt_eq e st)) e steps
  have hipv6 := foldl_lastGiven ipv6 (fun e st => congrArg _ (attempt_eq e st)) e steps
  have hport := foldl_lastGiven port (fun e st => congrArg _ (attempt_eq e st)) e steps
  rw [← hname, ← hipv4, ← hipv6, ← hport]
  rfl

/-- A run of steps never leaves the normal endpoints. -/
theorem normal_run {e : Endpoint} (h : e.Normal) (steps : List Step) : (e.run steps).Normal := by
  induction steps generalizing e with
  | nil => exact h
  | cons st steps ih =>
    refine ih ?_
    unfold attempt
    split
    · next e' happly => exact normal_apply h happly
    · exact h

namespace Step

theorem fieldOfAddress_of_ipv4 {a : Address} (h : ipv4OfAddress? a ≠ none) :
    fieldOfAddress a = .ipv4 := by
  cases a with
  | v4 a => rfl
  | v6 a =>
    have hmapped : a.mapped?.isSome = true := Option.isSome_iff_ne_none.2 h
    rw [fieldOfAddress, if_pos hmapped]

theorem fieldOfAddress_of_ipv6 {a : Address} (h : ipv6OfAddress? a ≠ none) :
    fieldOfAddress a = .ipv6 := by
  cases a with
  | v4 a => contradiction
  | v6 a =>
    rw [ipv6OfAddress?] at h
    rw [fieldOfAddress]
    split at h
    · contradiction
    · next hmapped => rw [if_neg hmapped]

/-- The field that an address is kept in is the field that a step with this address sets. -/
theorem field?_of_address {st : Step} {α : Type} {part : Address → Option α} {f : Field}
    (hpart : ∀ {a}, part a ≠ none → fieldOfAddress a = f) (h : st.address?.bind part ≠ none) :
    st.field? = some f := by
  obtain ⟨v, hv⟩ := Option.ne_none_iff_exists'.1 h
  obtain ⟨a, ha, hv⟩ := Option.bind_eq_some_iff.1 hv
  have hfield : st.field? = st.address?.map fieldOfAddress := by
    cases st <;> first | rfl | contradiction
  rw [hfield, ha, Option.map_some, hpart (hv ▸ Option.some_ne_none v)]

theorem field?_of_ipv4 {st : Step} (h : st.ipv4? ≠ none) : st.field? = some .ipv4 :=
  field?_of_address fieldOfAddress_of_ipv4 h

theorem field?_of_ipv6 {st : Step} (h : st.ipv6? ≠ none) : st.field? = some .ipv6 :=
  field?_of_address fieldOfAddress_of_ipv6 h

theorem field?_of_serviceName {st : Step} (h : st.serviceName? ≠ none) :
    st.field? = some .serviceName := by
  cases st <;> first | rfl | contradiction

theorem field?_of_port {st : Step} (h : st.port? ≠ none) : st.field? = some .port := by
  cases st <;> first | rfl | contradiction

/-- Whether a step sets a field. -/
def sets (f : Field) (st : Step) : Bool :=
  st.field? = some f

theorem lastGiven_sets {α : Type} {give : Step → Option α} {f : Field}
    (h : ∀ {st}, give st ≠ none → st.field? = some f) (steps : List Step) :
    lastGiven give (steps.filter (sets f)) = lastGiven give steps := by
  refine lastGiven_filter (fun st hst => ?_) steps
  cases hgive : give st with
  | none => rfl
  | some a => exact absurd (h (hgive ▸ Option.some_ne_none a)) (of_decide_eq_false hst)

end Step

/-- Steps for one field keep their order, those for different fields need not. -/
theorem run_congr {xs ys : List Step} (h : ∀ f, xs.filter (Step.sets f) = ys.filter (Step.sets f))
    (e : Endpoint) : e.run xs = e.run ys := by
  have hlast {α : Type} {give : Step → Option α} {f : Field}
      (hgive : ∀ {st}, give st ≠ none → st.field? = some f) :
      lastGiven give xs = lastGiven give ys := by
    rw [← Step.lastGiven_sets hgive xs, h f, Step.lastGiven_sets hgive ys]
  rw [run_eq, run_eq, hlast Step.field?_of_serviceName, hlast Step.field?_of_ipv4,
    hlast Step.field?_of_ipv6, hlast Step.field?_of_port]

/-- An endpoint that is put together by steps has in each field what the last step for this field
gave, but no port for port zero. An address is kept where it belongs, and steps for different
fields may change their places. Only a text that is no address makes a step fail, and such a step
might as well not have been there. -/
theorem run_steps :
    (∀ steps, (empty.run steps).port ≠ some 0 ∧
      (∀ a ∈ (empty.run steps).ipv6, a.mapped? = none) ∧
      (empty.run steps).serviceName = lastGiven Step.serviceName? steps ∧
      (empty.run steps).ipv4 = lastGiven Step.ipv4? steps ∧
      (empty.run steps).ipv6 = lastGiven Step.ipv6? steps ∧
      (empty.run steps).port = (lastGiven Step.port? steps).filter (· ≠ 0)) ∧
    (∀ (e : Endpoint) (xs ys : List Step),
      (∀ f, xs.filter (Step.sets f) = ys.filter (Step.sets f)) → e.run xs = e.run ys) ∧
    ∀ (e : Endpoint) (st : Step) (error : AddressError),
      (e.apply st = .error error ↔
        ∃ text, st = .ip text ∧ Address.ofText? text = none ∧ error = ⟨text⟩) ∧
      (e.apply st = .error error →
        ∀ (start : Endpoint) (xs ys : List Step),
          start.run (xs ++ st :: ys) = start.run (xs ++ ys)) := by
  refine ⟨fun steps => ?parts, fun e xs ys h => run_congr h e,
    fun e st error => ⟨apply_eq_error_iff, fun herror start xs ys => ?skipped⟩⟩
  case parts =>
    have hnormal := normal_run normal_empty steps
    refine ⟨hnormal.port, hnormal.ipv6, ?_⟩
    rw [run_eq]
    have hsome {α : Type} (o : Option α) : o.elim none some = o := by cases o <;> rfl
    refine ⟨hsome _, hsome _, hsome _, ?_⟩
    cases lastGiven Step.port? steps with
    | none => rfl
    | some port => by_cases hport : port = 0 <;> simp [empty, Option.filter_some, hport]
  case skipped =>
    obtain ⟨text, rfl, htext, -⟩ := apply_eq_error_iff.1 herror
    have hskip (e : Endpoint) : e.attempt (.ip text) = e := by
      rw [attempt, apply, withAddressText, htext]
    rw [run, run, List.foldl_append, List.foldl_append, List.foldl_cons, hskip]

/-- An IPv6 address that stands for an IPv4 address takes the place of the one before it, and a
port that is given last as zero is none. -/
theorem run_steps_sample :
    let loopback := IPv4.mk [127, 0, 0, 1] rfl
    let mapped := IPv6.mk [0, 0, 0, 0, 0, 0xffff, 0x0102, 0x0304] rfl
    let steps : List Step :=
      [.ipv4 loopback, .port 80, .ip "localhost", .ipv6 mapped, .port 0]
    (empty.run steps).ipv4 = some ⟨[1, 2, 3, 4], rfl⟩ ∧ (empty.run steps).port = none ∧
    empty.run steps = empty.run [.port 80, .port 0, .ipv4 loopback, .ipv6 mapped] := by
  intro loopback mapped steps
  obtain ⟨hparts, hcongr, hfails⟩ := run_steps
  obtain ⟨-, -, -, hipv4, -, hport⟩ := hparts steps
  have hlocalhost : Address.ofText? "localhost" = none := by decide +kernel
  obtain ⟨herror, hskip⟩ := hfails empty (.ip "localhost") ⟨"localhost"⟩
  have hskip := hskip (herror.2 ⟨_, rfl, hlocalhost, rfl⟩) empty [.ipv4 loopback, .port 80]
    [.ipv6 mapped, .port 0]
  refine ⟨hipv4.trans ?_, hport.trans ?_, hskip.trans (hcongr empty _ _ fun f => ?_)⟩
  · decide +kernel
  · decide +kernel
  · cases f <;> decide

end Endpoint

end SpanWire
