import Mathlib.Data.List.Forall2
import SpanWire.Proofs.Address
import SpanWire.Proofs.Id
import SpanWire.Proofs.Wire.Canonical
import SpanWire.Proofs.Wire.Decode

/-!
Which spans have the same encoding: those that differ in empty endpoints only. Unlike the message
of a span, its fields tell a part that is there with its default from one that is absent.
-/
namespace SpanWire

open Wire

namespace Wire

theorem flatMap_bytes_inj {fs gs : List WireField} (hf : ∀ f ∈ fs, f.Fits)
    (hg : ∀ g ∈ gs, g.Fits) :
    fs.flatMap WireField.bytes = gs.flatMap WireField.bytes ↔ fs = gs := by
  refine ⟨fun h => ?_, fun h => h ▸ rfl⟩
  have hread := readFields_flatMap hf
  rw [h, readFields_flatMap hg] at hread
  exact (Option.some.inj hread).symm

theorem textPayload_inj {s t : String} (h : textPayload s = textPayload t) : s = t :=
  Text.utf8_inj (Payload.delimited.inj h)

/-- Fields with numbers from `lo` on and below `hi`. -/
def InRange (lo hi : Nat) (fs : List WireField) : Prop :=
  ∀ f ∈ fs, lo ≤ f.number ∧ f.number < hi

namespace InRange

variable {lo mid hi : Nat} {fs fs' : List WireField}

theorem append (h : InRange lo mid fs) (hlo : lo ≤ mid) (hhi : mid ≤ hi)
    (h' : InRange mid hi fs') : InRange lo hi (fs ++ fs') := by
  intro f hf
  rcases List.mem_append.1 hf with hf | hf
  · have hrange := h f hf
    omega
  · have hrange := h' f hf
    omega

theorem map {α : Type} (n : Nat) (payload : α → Payload) (xs : List α) :
    InRange n (n + 1) (xs.map fun x => ⟨n, payload x⟩) := by
  intro f hf
  obtain ⟨x, -, rfl⟩ := List.mem_map.1 hf
  exact ⟨Nat.le_refl n, Nat.lt_succ_self n⟩

/-- Where the numbers of the second range begin, the fields of the first one end. -/
theorem filter_append (h : InRange lo mid fs) (h' : InRange mid hi fs') :
    (fs ++ fs').filter (·.number < mid) = fs := by
  have hlow : fs.filter (·.number < mid) = fs :=
    List.filter_eq_self.2 fun f hf => decide_eq_true (h f hf).2
  have hhigh : fs'.filter (·.number < mid) = [] :=
    List.filter_eq_nil_iff.2 fun f hf => by simpa using (h' f hf).1
  rw [List.filter_append, hlow, hhigh, List.append_nil]

end InRange

/-- The fields of two messages with numbers of one range. They are the same exactly when `p`
holds. -/
structure Compares (lo hi : Nat) (p : Prop) (fs gs : List WireField) : Prop where
  le : lo ≤ hi
  left : InRange lo hi fs
  right : InRange lo hi gs
  eq_iff : fs = gs ↔ p

namespace Compares

variable {lo mid hi : Nat} {p q : Prop} {fs gs fs' gs' : List WireField}

theorem of_iff (hpq : p ↔ q) (h : Compares lo hi p fs gs) : Compares lo hi q fs gs :=
  ⟨h.le, h.left, h.right, h.eq_iff.trans hpq⟩

theorem append (h : Compares lo mid p fs gs) (h' : Compares mid hi q fs' gs') :
    Compares lo hi (p ∧ q) (fs ++ fs') (gs ++ gs') where
  le := Nat.le_trans h.le h'.le
  left := h.left.append h.le h'.le h'.left
  right := h.right.append h.le h'.le h'.right
  eq_iff := by
    rw [← h.eq_iff, ← h'.eq_iff]
    refine ⟨fun heq => ?_, fun ⟨hfs, hfs'⟩ => hfs ▸ hfs' ▸ rfl⟩
    have hfilter := congrArg (List.filter (·.number < mid)) heq
    rw [h.left.filter_append h'.left, h.right.filter_append h'.right] at hfilter
    subst hfilter
    exact ⟨rfl, List.append_cancel_left heq⟩

/-- Fields of one number, in the order of what they are made from. -/
theorem forall₂ {α : Type} (n : Nat) (payload : α → Payload) {r : α → α → Prop} {xs ys : List α}
    (h : ∀ x ∈ xs, ∀ y ∈ ys, (payload x = payload y ↔ r x y)) :
    Compares n (n + 1) (List.Forall₂ r xs ys) (xs.map fun x => ⟨n, payload x⟩)
      (ys.map fun y => ⟨n, payload y⟩) where
  le := Nat.le_succ n
  left := .map n payload xs
  right := .map n payload ys
  eq_iff := by
    induction xs generalizing ys with
    | nil => cases ys <;> simp
    | cons x xs ih =>
      cases ys with
      | nil => simp
      | cons y ys =>
        have hhead := h x List.mem_cons_self y List.mem_cons_self
        have htail := ih fun x hx y hy => h x (List.mem_cons_of_mem _ hx) y
          (List.mem_cons_of_mem _ hy)
        rw [List.map_cons, List.map_cons, List.cons.injEq, WireField.mk.injEq, hhead, htail,
          List.forall₂_cons]
        simp

theorem map {α : Type} (n : Nat) (payload : α → Payload) {xs ys : List α}
    (h : ∀ x ∈ xs, ∀ y ∈ ys, payload x = payload y → x = y) :
    Compares n (n + 1) (xs = ys) (xs.map fun x => ⟨n, payload x⟩)
      (ys.map fun y => ⟨n, payload y⟩) := by
  refine (forall₂ n payload fun x hx y hy => ⟨h x hx y hy, congrArg payload⟩).of_iff ?_
  rw [List.forall₂_eq_eq_eq]

theorem single {α : Type} (n : Nat) (payload : α → Payload) {a b : α}
    (h : payload a = payload b → a = b) :
    Compares n (n + 1) (a = b) [⟨n, payload a⟩] [⟨n, payload b⟩] := by
  have hmap : Compares n (n + 1) ([a] = [b]) _ _ := map n payload (by simpa using h)
  exact hmap.of_iff (by simp)

theorem optional {α : Type} (n : Nat) (payload : α → Payload) {o o' : Option α}
    (h : ∀ a ∈ o, ∀ b ∈ o', payload a = payload b → a = b) :
    Compares n (n + 1) (o = o') (optionalField n payload o) (optionalField n payload o') := by
  have hlist : ∀ o : Option α,
      optionalField n payload o = o.toList.map fun a => ⟨n, payload a⟩ := by
    intro o
    cases o <;> rfl
  rw [hlist, hlist]
  refine (map n payload (by simpa using h)).of_iff ?_
  cases o <;> cases o' <;> simp

theorem number (n : Nat) {payload : UInt64 → Payload} (h : ∀ v w, payload v = payload w → v = w)
    (v w : UInt64) :
    Compares n (n + 1) (v = w) (numberFields n payload v) (numberFields n payload w) := by
  have hoptional : ∀ v, numberFields n payload v =
      optionalField n payload (if v = 0 then none else some v) := by
    intro v
    rw [numberFields]
    split <;> rfl
  rw [hoptional, hoptional]
  refine (optional n payload fun a _ b _ => h a b).of_iff ?_
  split <;> split <;> simp_all [eq_comm]

theorem flag (n : Nat) (a b : Bool) :
    Compares n (n + 1) (a = b) (boolFields n a) (boolFields n b) := by
  have hoptional : ∀ a : Bool, boolFields n a =
      optionalField n (fun _ => .varint 1) (if a then some () else none) := by
    intro a
    cases a <;> rfl
  rw [hoptional, hoptional]
  refine (optional n _ fun _ _ _ _ _ => rfl).of_iff ?_
  cases a <;> cases b <;> simp

/-- Messages that stand in fields with the same bytes have the same fields. -/
theorem of_message (h : Compares lo hi p fs gs) (hfs : ∀ f ∈ fs, f.Fits) (hgs : ∀ g ∈ gs, g.Fits) :
    messagePayload fs = messagePayload gs ↔ p := by
  rw [messagePayload, messagePayload, Payload.delimited.injEq, flatMap_bytes_inj hfs hgs, h.eq_iff]

theorem of_spells {ws vs : List Write} (h : Compares lo hi p fs gs) (hws : Spells ws fs)
    (hvs : Spells vs gs) : (encodings ws).toArray = (encodings vs).toArray ↔ p := by
  rw [← Array.toList_inj, List.toList_toArray, List.toList_toArray, hws.bytes, hvs.bytes,
    flatMap_bytes_inj hws.fits hvs.fits, h.eq_iff]

end Compares

end Wire

theorem Endpoint.compares (e f : Endpoint) : Compares 1 5 (e = f) e.fields f.fields := by
  have hname : Compares 1 2 (e.serviceName = f.serviceName) _ _ :=
    .optional 1 textPayload fun _ _ _ _ => textPayload_inj
  have hipv4 : Compares 2 3 (e.ipv4 = f.ipv4) _ _ :=
    .optional 2 (fun a => .delimited a.octets) fun _ _ _ _ h =>
      IPv4.octets_inj (Payload.delimited.inj h)
  have hipv6 : Compares 3 4 (e.ipv6 = f.ipv6) _ _ :=
    .optional 3 (fun a => .delimited a.octets) fun _ _ _ _ h =>
      IPv6.octets_inj (Payload.delimited.inj h)
  have hport : Compares 4 5 (e.port = f.port) _ _ :=
    .optional 4 (fun port => .varint port.toUInt64) fun _ _ _ _ h => by
      simpa [← UInt64.toNat_inj, ← UInt16.toNat_inj] using h
  refine (((hname.append hipv4).append hipv6).append hport).of_iff ?_
  cases e
  cases f
  simp [and_assoc]

theorem Annotation.compares (a b : Annotation) : Compares 1 3 (a = b) a.fields b.fields := by
  have htimestamp : Compares 1 2 (a.timestamp = b.timestamp) _ _ :=
    .single 1 .fixed64 Payload.fixed64.inj
  have hvalue : Compares 2 3 (a.value = b.value) _ _ := .single 2 textPayload textPayload_inj
  refine (htimestamp.append hvalue).of_iff ?_
  cases a
  cases b
  simp

theorem compares_tag (d e : String × String) :
    Compares 1 3 (d = e) (tagFields d.1 d.2) (tagFields e.1 e.2) := by
  have hkey : Compares 1 2 (d.1 = e.1) _ _ := .single 1 textPayload textPayload_inj
  have hvalue : Compares 2 3 (d.2 = e.2) _ _ := .single 2 textPayload textPayload_inj
  exact (hkey.append hvalue).of_iff Prod.ext_iff.symm

/-- Of an endpoint that is not written only its absence can be told. -/
theorem compares_endpoint (n : Nat) {o o' : Option Endpoint}
    (h : ∀ e ∈ o, e.isEmpty = false → e.size < 2 ^ 64)
    (h' : ∀ e ∈ o', e.isEmpty = false → e.size < 2 ^ 64) :
    Compares n (n + 1) (o.filter (!·.isEmpty) = o'.filter (!·.isEmpty)) (endpointFields n o)
      (endpointFields n o') := by
  refine .optional n _ fun e he f hf => ?_
  rw [Option.mem_def, Option.filter_eq_some_iff, Bool.not_eq_true'] at he hf
  have hfits := (Endpoint.writes_spells (h e he.1 he.2)).fits
  have hfits' := (Endpoint.writes_spells (h' f hf.1 hf.2)).fits
  exact ((e.compares f).of_message hfits hfits').1

theorem compares_annotations (n : Nat) {as bs : List Annotation} (h : ∀ a ∈ as, a.size < 2 ^ 64)
    (h' : ∀ b ∈ bs, b.size < 2 ^ 64) :
    Compares n (n + 1) (as = bs) (as.map fun a => ⟨n, messagePayload a.fields⟩)
      (bs.map fun b => ⟨n, messagePayload b.fields⟩) := by
  refine .map n (fun a : Annotation => messagePayload a.fields) fun a ha b hb => ?_
  have hspells := Annotation.writes_spells (h a ha)
  have hspells' := Annotation.writes_spells (h' b hb)
  exact ((a.compares b).of_message hspells.fits hspells'.fits).1

theorem compares_tags (n : Nat) {ds es : List (String × String)}
    (h : ∀ d ∈ ds, tagSize d.1 d.2 < 2 ^ 64) (h' : ∀ e ∈ es, tagSize e.1 e.2 < 2 ^ 64) :
    Compares n (n + 1) (ds = es) (ds.map fun d => ⟨n, messagePayload (tagFields d.1 d.2)⟩)
      (es.map fun e => ⟨n, messagePayload (tagFields e.1 e.2)⟩) := by
  refine .map n (fun e : String × String => messagePayload (tagFields e.1 e.2))
    fun d hd e he => ?_
  have hfits := (writes_spells_tag (h d hd)).fits
  have hfits' := (writes_spells_tag (h' e he)).fits
  exact ((compares_tag d e).of_message hfits hfits').1

namespace Span

/-- The span without endpoints of which nothing is known. -/
def dropEmptyEndpoints (s : Span) : Span :=
  { s with
    localEndpoint := s.localEndpoint.filter (!·.isEmpty)
    remoteEndpoint := s.remoteEndpoint.filter (!·.isEmpty) }

theorem compares {a b : Span} (ha : a.PartsFit) (hb : b.PartsFit) :
    Compares 1 14 (a.dropEmptyEndpoints = b.dropEmptyEndpoints) a.fields b.fields := by
  have htrace : Compares 1 2 (a.traceId = b.traceId) _ _ :=
    .single 1 (fun id => .delimited id.toBytes) fun h =>
      TraceId.toBytes_inj (Payload.delimited.inj h)
  have hparent : Compares 2 3 (a.parentId = b.parentId) _ _ :=
    .optional 2 (fun id => .delimited id.toBytes) fun _ _ _ _ h =>
      SpanId.toBytes_inj (Payload.delimited.inj h)
  have hid : Compares 3 4 (a.id = b.id) _ _ :=
    .single 3 (fun id => .delimited id.toBytes) fun h =>
      SpanId.toBytes_inj (Payload.delimited.inj h)
  have hkind : Compares 4 5 (a.kind = b.kind) _ _ :=
    .optional 4 (fun kind => .varint kind.wireValue.toUInt64) fun k _ l _ => by
      cases k <;> cases l <;> decide
  have hname : Compares 5 6 (a.name = b.name) _ _ :=
    .optional 5 textPayload fun _ _ _ _ => textPayload_inj
  have htimestamp : Compares 6 7 (a.timestamp = b.timestamp) _ _ :=
    .number 6 (fun _ _ => Payload.fixed64.inj) _ _
  have hduration : Compares 7 8 (a.duration = b.duration) _ _ :=
    .number 7 (fun _ _ => Payload.varint.inj) _ _
  have hids := (htrace.append hparent).append hid
  have hnumbers := (((hids.append hkind).append hname).append htimestamp).append hduration
  have hlocal := hnumbers.append (compares_endpoint 8 ha.localEndpoint hb.localEndpoint)
  have hendpoints := hlocal.append (compares_endpoint 9 ha.remoteEndpoint hb.remoteEndpoint)
  have hlists := (hendpoints.append (compares_annotations 10 ha.annotations hb.annotations)).append
    (compares_tags 11 ha.tags hb.tags)
  refine ((hlists.append (.flag 12 a.debug b.debug)).append (.flag 13 a.shared b.shared)).of_iff ?_
  have htags : a.tags.entries = b.tags.entries ↔ a.tags = b.tags := ⟨Tags.ext, congrArg _⟩
  rw [htags, dropEmptyEndpoints, dropEmptyEndpoints, Span.mk.injEq]
  simp only [and_assoc]

theorem encode_inj {a b : Span} (ha : a.size < 2 ^ 64) (hb : b.size < 2 ^ 64) :
    a.encode = b.encode ↔ a.dropEmptyEndpoints = b.dropEmptyEndpoints := by
  have hparts := partsFit ha
  have hparts' := partsFit hb
  rw [encode_eq, encode_eq]
  exact (compares hparts hparts').of_spells (writes_spells hparts) (writes_spells hparts')

end Span

theorem compares_frames {as bs : List Span} (has : ∀ s ∈ as, s.size < 2 ^ 64)
    (hbs : ∀ s ∈ bs, s.size < 2 ^ 64) :
    Compares 1 2 (List.Forall₂ (fun a b => a.dropEmptyEndpoints = b.dropEmptyEndpoints) as bs)
      (as.map fun s => ⟨1, messagePayload s.fields⟩)
      (bs.map fun s => ⟨1, messagePayload s.fields⟩) := by
  refine .forall₂ 1 (fun s : Span => messagePayload s.fields) fun a ha b hb => ?_
  have hparts := Span.partsFit (has a ha)
  have hparts' := Span.partsFit (hbs b hb)
  exact (Span.compares hparts hparts').of_message (Span.writes_spells hparts).fits
    (Span.writes_spells hparts').fits

theorem encodeList_inj {as bs : List Span} (has : framedSize as < 2 ^ 64)
    (hbs : framedSize bs < 2 ^ 64) :
    encodeList as = encodeList bs ↔
      List.Forall₂ (fun a b => a.dropEmptyEndpoints = b.dropEmptyEndpoints) as bs := by
  have hsizes := size_lt_of_framedSize has
  have hsizes' := size_lt_of_framedSize hbs
  rw [encodeList_eq, encodeList_eq]
  exact (compares_frames hsizes hsizes').of_spells (spells_frames hsizes) (spells_frames hsizes')

theorem Endpoint.isEmpty_iff {e : Endpoint} : e.isEmpty = true ↔ e = .empty := by
  cases e
  simp [isEmpty, empty, and_assoc]

/-- Dropping an empty endpoint takes no part away. -/
theorem bind_filter_isEmpty {α : Type} {part : Endpoint → Option α} (h : part .empty = none)
    (o : Option Endpoint) : (o.filter (!·.isEmpty)).bind part = o.bind part := by
  cases o with
  | none => rfl
  | some e =>
    rw [Option.filter_some]
    cases he : e.isEmpty with
    | false => rfl
    | true =>
      rw [Endpoint.isEmpty_iff.1 he]
      exact h.symm

/-- The parts of its endpoints are the same in a span without the empty ones. -/
theorem Span.bind_of_dropEmptyEndpoints {α : Type} {a b : Span} (part : Endpoint → Option α)
    (hpart : part .empty = none) (h : a.dropEmptyEndpoints = b.dropEmptyEndpoints) :
    a.localEndpoint.bind part = b.localEndpoint.bind part ∧
    a.remoteEndpoint.bind part = b.remoteEndpoint.bind part := by
  have hlocal := congrArg (fun s => s.localEndpoint.bind part) h
  have hremote := congrArg (fun s => s.remoteEndpoint.bind part) h
  simp only [dropEmptyEndpoints, bind_filter_isEmpty hpart] at hlocal hremote
  exact ⟨hlocal, hremote⟩

/-- Two spans have the same encoding exactly when they are the same without empty endpoints, and
two lists exactly when they are as long as each other and hold such spans in the same places. So
whatever a span says can be told from its encoding, presence included. -/
theorem encode_injective :
    (∀ a b : Span, a.size < 2 ^ 64 → b.size < 2 ^ 64 →
      (a.encode = b.encode ↔ a.dropEmptyEndpoints = b.dropEmptyEndpoints)) ∧
    (∀ a b : Span, a.size < 2 ^ 64 → b.size < 2 ^ 64 → a.encode = b.encode →
      a.traceId = b.traceId ∧ a.name = b.name ∧ a.annotations = b.annotations ∧
      a.localServiceName = b.localServiceName ∧ a.remoteServiceName = b.remoteServiceName ∧
      a.localEndpoint.bind (·.port) = b.localEndpoint.bind (·.port) ∧
      a.remoteEndpoint.bind (·.port) = b.remoteEndpoint.bind (·.port)) ∧
    ∀ as bs : List Span, framedSize as < 2 ^ 64 → framedSize bs < 2 ^ 64 →
      (encodeList as = encodeList bs ↔
        List.Forall₂ (fun a b => a.dropEmptyEndpoints = b.dropEmptyEndpoints) as bs) := by
  refine ⟨fun a b ha hb => Span.encode_inj ha hb, fun a b ha hb h => ?_,
    fun as bs has hbs => encodeList_inj has hbs⟩
  have hdrop := (Span.encode_inj ha hb).1 h
  have hnames := Span.bind_of_dropEmptyEndpoints Endpoint.serviceName rfl hdrop
  have hports := Span.bind_of_dropEmptyEndpoints Endpoint.port rfl hdrop
  have htrace := congrArg Span.traceId hdrop
  have hname := congrArg Span.name hdrop
  have hannotations := congrArg Span.annotations hdrop
  exact ⟨htrace, hname, hannotations, hnames.1, hnames.2, hports.1, hports.2⟩

/-- An empty endpoint leaves no trace, but an empty name does, as does the order of a list. -/
theorem encode_injective_sample :
    Span.sample.encode = { Span.sample with localEndpoint := none }.encode ∧
    (Span.sample.withName "").encode ≠ { Span.sample with name := none }.encode ∧
    encodeList [Span.sample, Span.sample.withName ""] ≠
      encodeList [Span.sample.withName "", Span.sample] := by
  obtain ⟨hspans, hparts, hlists⟩ := encode_injective
  refine ⟨(hspans _ _ (by decide) (by decide)).2 rfl, fun h => ?_, fun h => ?_⟩
  · have hname := (hparts _ _ (by decide) (by decide) h).2.1
    contradiction
  · obtain ⟨hfirst, -⟩ := List.forall₂_cons.1 ((hlists _ _ (by decide) (by decide)).1 h)
    have hname := congrArg Span.name hfirst
    exact absurd hname (by decide)

end SpanWire
