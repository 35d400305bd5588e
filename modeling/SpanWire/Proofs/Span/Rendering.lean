import SpanWire.Proofs.Json.Value
import SpanWire.Proofs.Span.Json

/-!
A span can be told from its JSON text. What is read from the text has normal endpoints, so that the
endpoints as they are have to be told from their members, and all else from what is read.
-/
namespace SpanWire

open Json

namespace Endpoint

theorem record_inj {a b : Endpoint} (h : ∀ f, a.record f = b.record f) : a = b := by
  obtain ⟨name, ipv4, ipv6, port⟩ := a
  obtain ⟨name', ipv4', ipv6', port'⟩ := b
  cases h .serviceName
  cases h .ipv4
  cases h .ipv6
  cases h .port
  rfl

/-- Endpoints with the same members are equal, also where reading these makes them normal. -/
theorem toJson_inj {a b : Endpoint} (h : a.toJson = b.toJson) : a = b := by
  have hread (e : Endpoint) : schema.readRecord e.toJson.draft = .ok e.record := by
    rw [toJson_eq]
    exact Schema.readRecord_written (by decide) e.describes
  have ha := hread a
  rw [h, hread b] at ha
  exact record_inj fun f => congrFun (Except.ok.inj ha).symm f

end Endpoint

namespace Span

/-- Spans that are equal when made normal differ in their endpoints if anywhere. -/
theorem eq_of_normalize {a b : Span} (h : a.normalize = b.normalize)
    (hlocal : a.localEndpoint = b.localEndpoint) (hremote : a.remoteEndpoint = b.remoteEndpoint) :
    a = b := by
  have hself (s : Span) : s = { s.normalize with
      localEndpoint := s.localEndpoint
      remoteEndpoint := s.remoteEndpoint } := rfl
  rw [hself a, hself b, h, hlocal, hremote]

theorem toJson_inj {a b : Span} (h : a.toJson = b.toJson) : a = b := by
  have hread : a.normalize = b.normalize := by
    have ha := a.ofJson_toJson
    rw [h, ofJson_toJson] at ha
    exact (Except.ok.inj ha).symm
  have hwritten : a.written = b.written := by
    rw [toJson_eq, toJson_eq, Json.Value.object.injEq] at h
    exact Schema.written_inj (by decide) h
  have hendpoints : Function.Injective (Option.map Endpoint.toJson) :=
    Option.map_injective fun _ _ => Endpoint.toJson_inj
  exact eq_of_normalize hread (hendpoints (congrFun hwritten .localEndpoint))
    (hendpoints (congrFun hwritten .remoteEndpoint))

theorem render_inj {a b : Span} (h : a.render = b.render) : a = b :=
  toJson_inj (Json.Value.render_inj h)

/-- Two spans have one text only if they are the same span, whether or not their endpoints are
normal. So the text tells an endpoint or a name that is absent from one that says nothing, and
different tags or annotations apart, and even an IPv4 address from an IPv6 address that stands for
it, although the same is read from both. -/
theorem render_eq_iff :
    (∀ a b : Span, a.render = b.render ↔ a = b) ∧
    (∀ (s : Span) (o o' : Option Endpoint), o ≠ o' →
      { s with localEndpoint := o }.render ≠ { s with localEndpoint := o' }.render ∧
      { s with remoteEndpoint := o }.render ≠ { s with remoteEndpoint := o' }.render) ∧
    (∀ s : Span, { s with name := none }.render ≠ (s.withName "").render) ∧
    (∀ (s : Span) (e : Endpoint) (a : IPv6) (b : IPv4), a.mapped? = some b →
      let s₆ := s.withLocalEndpoint { e with ipv4 := none, ipv6 := some a }
      let s₄ := s.withLocalEndpoint { e with ipv4 := some b, ipv6 := none }
      ofText s₆.render = ofText s₄.render ∧ s₆.render ≠ s₄.render) ∧
    ∀ a b : Span, a.tags ≠ b.tags ∨ a.annotations ≠ b.annotations → a.render ≠ b.render := by
  refine ⟨fun a b => ⟨render_inj, congrArg render⟩, fun s o o' hne => ⟨fun h => ?_, fun h => ?_⟩,
    fun s h => ?name, fun s e a b hmapped => ⟨?alike, fun h => ?address⟩, fun a b hne h => ?parts⟩
  · exact hne (congrArg localEndpoint (render_inj h))
  · exact hne (congrArg remoteEndpoint (render_inj h))
  case name =>
    have hname := congrArg name (render_inj h)
    contradiction
  case alike =>
    have hnormal : Endpoint.normalize { e with ipv4 := none, ipv6 := some a } =
        Endpoint.normalize { e with ipv4 := some b, ipv6 := none } := by
      simp [Endpoint.normalize, hmapped]
    rw [ofText_render, ofText_render]
    simp only [normalize, withLocalEndpoint, Option.map_some, hnormal]
  case address =>
    have hlocal := congrArg localEndpoint (render_inj h)
    have hipv6 := congrArg Endpoint.ipv6 (Option.some.inj hlocal)
    contradiction
  case parts =>
    obtain rfl := render_inj h
    exact hne.elim (fun h => h rfl) fun h => h rfl

/-- An endpoint that says nothing, an IPv6 address that stands for an IPv4 address, and another
value of a tag. -/
theorem render_eq_iff_sample :
    { sample with remoteEndpoint := none }.render ≠ (sample.withRemoteEndpoint .empty).render ∧
    (sample.withLocalEndpoint
      { ipv6 := some ⟨[0, 0, 0, 0, 0, 0xffff, 0x0102, 0x0304], rfl⟩ }).render ≠
      (sample.withLocalEndpoint { ipv4 := some ⟨[1, 2, 3, 4], rfl⟩ }).render ∧
    sample.render ≠ (sample.withTag "k" "other").render := by
  obtain ⟨-, hendpoints, -, haddress, hparts⟩ := render_eq_iff
  refine ⟨(hendpoints sample none (some .empty) nofun).2, ?_, ?_⟩
  · exact (haddress sample {} _ _ (by decide)).2
  · exact hparts _ _ (.inl (by decide))

end Span

end SpanWire
