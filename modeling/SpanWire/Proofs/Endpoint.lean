import SpanWire.Endpoint

/-! Normal endpoints, and how an endpoint is made normal. -/
namespace SpanWire.Endpoint

/-- No port stands for an unknown one, and no IPv6 address for one of IPv4. -/
structure Normal (e : Endpoint) : Prop where
  port : e.port ≠ some 0
  ipv6 : ∀ a ∈ e.ipv6, a.mapped? = none

/-- Drops port zero, and moves an IPv6 address that stands for an IPv4 address to its place. -/
def normalize (e : Endpoint) : Endpoint where
  serviceName := e.serviceName
  ipv4 := (e.ipv6.bind IPv6.mapped?).or e.ipv4
  ipv6 := e.ipv6.filter fun a => a.mapped?.isNone
  port := e.port.filter (· ≠ 0)

theorem normal_empty : empty.Normal :=
  ⟨nofun, nofun⟩

theorem normal_normalize (e : Endpoint) : e.normalize.Normal where
  port h := by
    have hne := (Option.filter_eq_some_iff.1 h).2
    contradiction
  ipv6 a h := by
    have hnone := (Option.filter_eq_some_iff.1 h).2
    exact Option.isNone_iff_eq_none.1 hnone

theorem normalize_of_normal {e : Endpoint} (h : e.Normal) : e.normalize = e := by
  obtain ⟨name, ipv4, ipv6, port⟩ := e
  have hport : port.filter (· ≠ 0) = port := by
    cases port with
    | none => rfl
    | some port => simpa using h.port
  cases ipv6 with
  | none => rw [normalize, hport, Option.bind_none, Option.none_or, Option.filter_none]
  | some a =>
    have ha : a.mapped? = none := h.ipv6 a rfl
    rw [normalize, hport, Option.bind_some, ha, Option.none_or, Option.filter_some, ha]
    rfl

/-- Exactly the normal endpoints stay as they are. -/
theorem normalize_eq_iff {e : Endpoint} : e.normalize = e ↔ e.Normal :=
  ⟨fun h => h ▸ e.normal_normalize, normalize_of_normal⟩

/-- What is put together from the parts of an endpoint is the endpoint made normal. -/
theorem ofParts_eq (e : Endpoint) :
    ofParts e.serviceName e.ipv4 e.ipv6 e.port = e.normalize := by
  obtain ⟨name, ipv4, ipv6, port⟩ := e
  have hname : name.elim empty empty.withServiceName = { serviceName := name } := by
    cases name <;> rfl
  have hipv4 : ipv4.elim { serviceName := name } (withIPv4 { serviceName := name }) =
      { serviceName := name, ipv4 } := by
    cases ipv4 <;> rfl
  have hipv6 : ipv6.elim { serviceName := name, ipv4 } (withIPv6 { serviceName := name, ipv4 }) =
      { serviceName := name, ipv4 := (ipv6.bind IPv6.mapped?).or ipv4
        ipv6 := ipv6.filter fun a => a.mapped?.isNone } := by
    cases ipv6 with
    | none => rfl
    | some a =>
      rw [Option.elim_some, withIPv6, Option.bind_some, Option.filter_some]
      cases a.mapped? <;> rfl
  rw [ofParts, hname, hipv4, hipv6, normalize]
  cases port with
  | none => rfl
  | some port =>
    rw [Option.elim_some, withPort, Option.filter_some]
    by_cases hport : port = 0 <;> simp [hport]

theorem normal_withIPv4 {e : Endpoint} (h : e.Normal) (a : IPv4) : (e.withIPv4 a).Normal :=
  ⟨h.port, h.ipv6⟩

theorem normal_withIPv6 {e : Endpoint} (h : e.Normal) (a : IPv6) : (e.withIPv6 a).Normal := by
  rw [withIPv6]
  split
  · exact normal_withIPv4 h _
  · next ha =>
    refine ⟨h.port, ?_⟩
    rintro b ⟨⟩
    exact ha

theorem normal_withAddress {e : Endpoint} (h : e.Normal) (a : Address) :
    (e.withAddress a).Normal := by
  cases a with
  | v4 a => exact normal_withIPv4 h a
  | v6 a => exact normal_withIPv6 h a

theorem normal_withPort {e : Endpoint} (h : e.Normal) (port : UInt16) :
    (e.withPort port).Normal := by
  refine ⟨?_, h.ipv6⟩
  rw [withPort]
  split
  · nofun
  · next hport => exact fun heq => hport (Option.some.inj heq)

/-- No step leaves the normal endpoints. -/
theorem normal_apply {e e' : Endpoint} {st : Step} (h : e.Normal) (happly : e.apply st = .ok e') :
    e'.Normal := by
  cases st with
  | serviceName name =>
    obtain rfl := Except.ok.inj happly
    exact ⟨h.port, h.ipv6⟩
  | ip text =>
    rw [apply, withAddressText] at happly
    split at happly
    · next a _ =>
      obtain rfl := Except.ok.inj happly
      exact normal_withAddress h a
    · contradiction
  | ipv4 a =>
    obtain rfl := Except.ok.inj happly
    exact normal_withIPv4 h a
  | ipv6 a =>
    obtain rfl := Except.ok.inj happly
    exact normal_withIPv6 h a
  | port port =>
    obtain rfl := Except.ok.inj happly
    exact normal_withPort h port

/-- The endpoints that are put together step by step. -/
inductive Built : Endpoint → Prop
  | empty : Built empty
  | step {e e' : Endpoint} {st : Step} (h : Built e) (happly : e.apply st = .ok e') : Built e'

theorem Built.normal {e : Endpoint} (h : e.Built) : e.Normal := by
  induction h with
  | empty => exact normal_empty
  | step _ happly ih => exact normal_apply ih happly

end SpanWire.Endpoint
