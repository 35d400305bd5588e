import SpanWire.Proofs.Json.Strings
import SpanWire.Proofs.Json.Value
import SpanWire.Proofs.Span.Members

/-!
Texts that are given to endpoints as their addresses. A step takes a text of either family, while in
JSON the key says which family is meant; both ways have to end in the same endpoint.
-/
namespace SpanWire

open Json

theorem readOption_text {α : Type} {read : Reader α} {q : Quotation} {o : Option α} :
    readOption read (.leaf (some (.text q))) = .ok o ↔
      ∃ a, read (.leaf (some (.text q))) = .ok a ∧ some a = o :=
  map_eq_ok

theorem IPv4.ofJson_quotation {q : Quotation} {s : String} (hq : q.value = .ok s) {a : IPv4} :
    IPv4.ofJson (.leaf (some (.text q))) = .ok a ↔ IPv4.ofText? s = some a := by
  have hread : readText (.address .v4) (.leaf (some (.text q))) = .ok s := mapError_eq_ok.2 hq
  rw [IPv4.ofJson]
  simp only [hread, bind, Except.bind]
  cases IPv4.ofText? s <;> simp

theorem IPv6.ofJson_quotation {q : Quotation} {s : String} (hq : q.value = .ok s) {a : IPv6} :
    IPv6.ofJson (.leaf (some (.text q))) = .ok a ↔ IPv6.ofText? s = some a := by
  have hread : readText (.address .v6) (.leaf (some (.text q))) = .ok s := mapError_eq_ok.2 hq
  rw [IPv6.ofJson]
  simp only [hread, bind, Except.bind]
  cases IPv6.ofText? s <;> simp

namespace Endpoint

/-- The parts of an endpoint of which only one is known. -/
def only (f : Field) (v : f.Value) : (g : Field) → g.Value :=
  Function.update empty.record f v

theorem only_self (f : Field) (v : f.Value) : only f v f = v :=
  Function.update_self ..

theorem only_of_ne {f g : Field} (h : g ≠ f) (v : f.Value) : only f v g = empty.record g :=
  Function.update_of_ne h ..

/-- From a member on its own comes an endpoint of which nothing but this part is known. -/
theorem readDocument_member {f : Field} {text member : String} {e : Endpoint}
    (htext : ObjectText text.toList [(f.key, member)]) (hmember : WellFormed member) :
    readDocument ofJson text = .ok e ↔
      ∃ v : f.Value, readDocument f.read member = .ok v ∧ ofRecord (only f v) = e := by
  have hfields (g : Field) : ReadsWhole g.read := g.readsSound.readsWhole
  have hgives := (Schema.readsObjects (σ := schema) (by decide) rfl hfields ofRecord).gives
  have hblank (g : Field) : g.absent = some (empty.record g) := by cases g <;> rfl
  refine (hgives text _ e htext (List.forall_mem_singleton.2 hmember)).trans ?_
  constructor
  · rintro ⟨r, hr, rfl⟩
    obtain ⟨hvalue, hothers⟩ := (Schema.gives_single (by decide) hblank).1 hr
    refine ⟨r f, hvalue, congrArg ofRecord (funext fun g => ?_)⟩
    by_cases hg : g = f
    · subst hg
      exact only_self g _
    · exact (only_of_ne hg _).trans (hothers g hg).symm
  · rintro ⟨v, hv, rfl⟩
    refine ⟨only f v, (Schema.gives_single (by decide) hblank).2 ⟨?_, fun g hg => ?_⟩, rfl⟩
    · rwa [only_self]
    · exact only_of_ne hg v

/-- A member with a string gives what the string is parsed as, if its field is read in this way. -/
theorem readDocument_parsed {f : Field} {α : Type} {parse : String → Option α} {put : α → f.Value}
    (hread : ∀ {q : Quotation} {s : String}, q.value = .ok s → ∀ v,
      f.read (.leaf (some (.text q))) = .ok v ↔ ∃ a, parse s = some a ∧ put a = v)
    {text s : String} (htext : StringsText text [(f.key, s)]) {e : Endpoint} :
    readDocument ofJson text = .ok e ↔ ∃ a, parse s = some a ∧ ofRecord (only f (put a)) = e := by
  obtain ⟨member, hobject, hvalue⟩ := stringsText_single.1 htext
  obtain ⟨q, hq, hs⟩ := hvalue.readsAs
  rw [readDocument_member hobject hvalue.wellFormed, readDocument_of_readsAs _ hq]
  constructor
  · rintro ⟨v, hv, rfl⟩
    obtain ⟨a, ha, rfl⟩ := (hread hs v).1 hv
    exact ⟨a, ha, rfl⟩
  · rintro ⟨a, ha, rfl⟩
    exact ⟨put a, (hread hs _).2 ⟨a, ha, rfl⟩, rfl⟩

theorem readDocument_ipv4 {text s : String} (htext : StringsText text [("ipv4", s)])
    {e : Endpoint} :
    readDocument ofJson text = .ok e ↔ ∃ a, IPv4.ofText? s = some a ∧ empty.withIPv4 a = e := by
  have hread {q : Quotation} {s : String} (hq : q.value = .ok s) (v : Option IPv4) :
      Field.read .ipv4 (.leaf (some (.text q))) = .ok v ↔
        ∃ a, IPv4.ofText? s = some a ∧ some a = v :=
    readOption_text.trans (exists_congr fun a => and_congr_left' (IPv4.ofJson_quotation hq))
  exact readDocument_parsed (f := .ipv4) hread htext

theorem readDocument_ipv6 {text s : String} (htext : StringsText text [("ipv6", s)])
    {e : Endpoint} :
    readDocument ofJson text = .ok e ↔ ∃ a, IPv6.ofText? s = some a ∧ empty.withIPv6 a = e := by
  have hread {q : Quotation} {s : String} (hq : q.value = .ok s) (v : Option IPv6) :
      Field.read .ipv6 (.leaf (some (.text q))) = .ok v ↔
        ∃ a, IPv6.ofText? s = some a ∧ some a = v :=
    readOption_text.trans (exists_congr fun a => and_congr_left' (IPv6.ofJson_quotation hq))
  exact readDocument_parsed (f := .ipv6) hread htext

/-- A step takes an address text as the one of the two families that it is of. -/
theorem apply_ip_eq_ok {e e' : Endpoint} {s : String} :
    e.apply (.ip s) = .ok e' ↔
      (∃ a, IPv4.ofText? s = some a ∧ e.withIPv4 a = e') ∨
        ∃ a, IPv6.ofText? s = some a ∧ e.withIPv6 a = e' := by
  rw [apply, withAddressText, Address.ofText?_eq]
  cases hv4 : IPv4.ofText? s with
  | some a =>
    rw [IPv6.ofText?_of_ipv4 hv4]
    simp [withAddress]
  | none =>
    cases IPv6.ofText? s <;> simp [withAddress]

theorem apply_ip_ipv4 (e : Endpoint) (a : IPv4) :
    e.apply (.ip (toString a)) = e.apply (.ipv4 a) := by
  rw [apply, withAddressText, Address.ofText?_ipv4]
  rfl

theorem apply_ip_ipv6 (e : Endpoint) (a : IPv6) :
    e.apply (.ip (toString a)) = e.apply (.ipv6 a) := by
  rw [apply, withAddressText, Address.ofText?_ipv6]
  rfl

theorem hasMember_toJson {e : Endpoint} {f : Field} {v : Json.Value} :
    e.toJson.HasMember f.key v ↔ e.written f = some v := by
  rw [toJson_eq]
  exact Schema.hasMember_iff (by decide)

/-- A text from which an endpoint can be read. -/
def Readable (text : String) : Prop :=
  ∃ e, readDocument ofJson text = .ok e

/-- A step takes exactly the texts that are taken in JSON under the key of one family, which is the
key of only one of them, and gives the endpoint that is read there. Other texts are refused by all
three. The texts that are written for addresses are taken by it as the steps for the addresses
themselves are, also for an IPv6 address that stands for one of IPv4. -/
theorem address_texts_agree :
    (∀ key s : String, StringsText (Json.Value.object [(key, .text s)]).render [(key, s)]) ∧
    (∀ s text₄ text₆ : String, StringsText text₄ [("ipv4", s)] → StringsText text₆ [("ipv6", s)] →
      ((∃ e, empty.apply (.ip s) = .ok e) ↔ Xor (Readable text₄) (Readable text₆)) ∧
      ¬ (Readable text₄ ∧ Readable text₆) ∧
      (∀ e, empty.apply (.ip s) = .ok e ↔
        readDocument ofJson text₄ = .ok e ∨ readDocument ofJson text₆ = .ok e) ∧
      (empty.apply (.ip s) = .error ⟨s⟩ ↔ ¬ Readable text₄ ∧ ¬ Readable text₆)) ∧
    (∀ (start e : Endpoint) (a : IPv4), e.ipv4 = some a →
      ∃ s, (∀ v, e.toJson.HasMember "ipv4" v ↔ v = .text s) ∧
        start.apply (.ip s) = start.apply (.ipv4 a)) ∧
    ∀ (start e : Endpoint) (a : IPv6), e.ipv6 = some a →
      ∃ s, (∀ v, e.toJson.HasMember "ipv6" v ↔ v = .text s) ∧
        start.apply (.ip s) = start.apply (.ipv6 a) ∧
        ∀ b, a.mapped? = some b → start.apply (.ip s) = start.apply (.ipv4 b) := by
  refine ⟨fun key s => stringsText_render [(key, s)], fun s text₄ text₆ h₄ h₆ => ?texts,
    fun start e a ha => ?ipv4, fun start e a ha => ?ipv6⟩
  case texts =>
    have hok (e : Endpoint) : empty.apply (.ip s) = .ok e ↔
        readDocument ofJson text₄ = .ok e ∨ readDocument ofJson text₆ = .ok e := by
      rw [apply_ip_eq_ok, readDocument_ipv4 h₄, readDocument_ipv6 h₆]
    have hone : ¬ (Readable text₄ ∧ Readable text₆) := by
      rintro ⟨⟨e, he⟩, e', he'⟩
      obtain ⟨a, ha, -⟩ := (readDocument_ipv4 h₄).1 he
      obtain ⟨b, hb, -⟩ := (readDocument_ipv6 h₆).1 he'
      rw [IPv6.ofText?_of_ipv4 ha] at hb
      contradiction
    have hsome : (∃ e, empty.apply (.ip s) = .ok e) ↔ Readable text₄ ∨ Readable text₆ := by
      simp only [hok, exists_or, Readable]
    have hfails : empty.apply (.ip s) = .error ⟨s⟩ ↔ ¬ ∃ e, empty.apply (.ip s) = .ok e := by
      rw [apply, withAddressText]
      cases Address.ofText? s <;> simp
    refine ⟨?_, hone, hok, ?_⟩
    · rw [hsome, xor_iff_or_and_not_and]
      exact (and_iff_left hone).symm
    · rw [hfails, hsome, not_or]
  case ipv4 =>
    have hwritten : e.written .ipv4 = some (.text (toString a)) := by rw [written, ha]; rfl
    refine ⟨toString a, fun v => ?_, apply_ip_ipv4 start a⟩
    rw [show "ipv4" = Field.key .ipv4 from rfl, hasMember_toJson, hwritten, Option.some.injEq,
      eq_comm]
  case ipv6 =>
    have hwritten : e.written .ipv6 = some (.text (toString a)) := by rw [written, ha]; rfl
    refine ⟨toString a, fun v => ?_, apply_ip_ipv6 start a, fun b hb => ?_⟩
    · rw [show "ipv6" = Field.key .ipv6 from rfl, hasMember_toJson, hwritten, Option.some.injEq,
        eq_comm]
    · rw [apply_ip_ipv6, apply, apply, withIPv6, hb]

/-- An octet with a zero in front is refused everywhere, and a text that stands for an IPv4 address
gives it by a step as it does in JSON under the key of the other family. -/
theorem address_texts_agree_sample :
    let object (key s : String) := (Json.Value.object [(key, .text s)]).render
    empty.apply (.ip "1.2.3.04") = .error ⟨"1.2.3.04"⟩ ∧
    ¬ Readable (object "ipv4" "1.2.3.04") ∧
    readDocument ofJson (object "ipv6" "::ffff:1.2.3.4") =
      .ok (empty.withIPv4 ⟨[1, 2, 3, 4], rfl⟩) ∧
    ¬ Readable (object "ipv4" "::ffff:1.2.3.4") ∧
    (∃ s, empty.apply (.ip s) = empty.apply (.ipv4 ⟨[1, 2, 3, 4], rfl⟩)) ∧
    ∃ s, empty.apply (.ip s) = empty.apply (.ipv6 ⟨[0, 0, 0, 0, 0, 0, 0, 1], rfl⟩) := by
  intro object
  obtain ⟨htexts, hagree, hipv4, hipv6⟩ := address_texts_agree
  obtain ⟨-, -, -, hrefused⟩ := hagree "1.2.3.04" _ _ (htexts "ipv4" _) (htexts "ipv6" _)
  obtain ⟨-, hone, htaken, -⟩ := hagree "::ffff:1.2.3.4" _ _ (htexts "ipv4" _) (htexts "ipv6" _)
  have hzero : empty.apply (.ip "1.2.3.04") = .error ⟨"1.2.3.04"⟩ := by decide +kernel
  have hmapped : empty.apply (.ip "::ffff:1.2.3.4") = .ok (empty.withIPv4 ⟨[1, 2, 3, 4], rfl⟩) := by
    decide +kernel
  have hv4 : IPv4.ofText? "::ffff:1.2.3.4" = none := by decide +kernel
  have hread : readDocument ofJson (object "ipv6" "::ffff:1.2.3.4") =
      .ok (empty.withIPv4 ⟨[1, 2, 3, 4], rfl⟩) := by
    rcases (htaken _).1 hmapped with h | h
    · obtain ⟨a, ha, -⟩ := (readDocument_ipv4 (htexts "ipv4" _)).1 h
      rw [hv4] at ha
      contradiction
    · exact h
  obtain ⟨s, -, hs⟩ := hipv4 empty (empty.withIPv4 ⟨[1, 2, 3, 4], rfl⟩) _ rfl
  obtain ⟨s', -, hs', -⟩ := hipv6 empty { ipv6 := some ⟨[0, 0, 0, 0, 0, 0, 0, 1], rfl⟩ } _ rfl
  exact ⟨hzero, (hrefused.1 hzero).1, hread, fun h => hone ⟨h, _, hread⟩, ⟨s, hs⟩, s', hs'⟩

end Endpoint

end SpanWire
