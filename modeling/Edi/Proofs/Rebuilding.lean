import Edi.Proofs.Envelope.Rebuilt
import Edi.Proofs.Output

namespace Edi

open Event (Shows)

namespace Interchange

def headings (i : Interchange) : List Heading :=
  ⟨.interchange, i.header.values 15⟩ :: i.body.filterMap Segment.heading?

/-- An X12 interchange with headers that can be handed out as attributes. -/
structure Plain (i : Interchange) : Prop where
  standard : i.standard = .x12
  body : ∀ s ∈ i.body, s.PlainHeader

instance (i : Interchange) : Decidable i.Plain :=
  decidable_of_iff (i.standard = .x12 ∧ ∀ s ∈ i.body, s.PlainHeader)
    ⟨fun h ↦ ⟨h.1, h.2⟩, fun h ↦ ⟨h.standard, h.body⟩⟩

end Interchange

namespace Reader

variable {r r₀ : Reader} {header : Segment} {shown : List Heading}

open Envelope

theorem plain_of_readHeader (h : r.readHeader = (.ok header, r₀)) (hx : r.standard = .x12) :
    Numbered header.fields ∧ (∀ f ∈ header.fields, f.repeats = false) ∧
      ∀ f ∈ header.fields, f.value.isComposite = false := by
  have hsimple (f : Field) (hf : f ∈ header.fields) : f.value.isComposite = false := by
    obtain ⟨text, hv⟩ := simple_of_readHeader h hx hf
    rw [hv]
    rfl
  obtain ⟨first, distance, trims, start, values, rfl, hfields⟩ := header_of_readHeader h hx
  refine ⟨fun _ ↦ ?_, fun f hf ↦ ?_, hsimple⟩
  · simp only [Segment.shift, List.map_map, Function.comp_def, List.length_map]
    rw [hfields]
    exact Preamble.simpleFields_numbered trims start 1 values
  · obtain ⟨g, hg, rfl⟩ := List.mem_map.1 hf
    rw [hfields] at hg
    exact Preamble.simpleFields_unrepeated (f := g) hg

end Reader

theorem Interchange.Brings.shows {i : Interchange} {es : List Event} (h : i.Brings es)
    (hf : i.Found) (hp : i.Plain) : Shows es i.headings := by
  obtain ⟨pieces, hpieces, rfl⟩ := h
  obtain ⟨r, r₀, hh, hs, -⟩ := id hf
  obtain ⟨hn, hu, hv⟩ := Reader.plain_of_readHeader hh (hs.trans hp.standard)
  have hx := hp.standard
  rw [hx] at hpieces ⊢
  have hrest : Shows pieces.flatten (i.body.flatMap fun s ↦ s.heading?.toList) := by
    refine Event.Reads.flatten hpieces fun s hm us hus ↦ ?_
    obtain ⟨tables, e, t, he, hpass, rfl⟩ := hus
    exact hpass.shows he (hf.positioned hm).numbered (hp.body s hm)
  rw [Interchange.headings, List.filterMap_eq_flatMap_toList]
  exact (Envelope.start_shows hn hu hv).append hrest

theorem parseStream_shows (options : Options) (source : Source)
    (hp : ∀ i ∈ interchanges options source, i.Plain) :
    Shows (Emission.events (parseStream .lenient options source).emissions)
      ((interchanges options source).flatMap Interchange.headings) := by
  obtain ⟨before, pieces, after, hpieces, he, hframe⟩ := parseStream_brings options source
  have hshow (es : List Event) (h : ∀ e ∈ es, e ∈ Event.documentFrame) : Shows es [] := by
    have hnone : ∀ e ∈ Event.documentFrame, ∀ name ∈ Event.headingNames,
        e.isStartOf name = false := by decide
    exact Event.shows_of_not_start fun e he ↦ hnone e (h e he)
  obtain ⟨hbefore, hafter⟩ := List.forall_mem_append.1 hframe
  have hall : Shows pieces.flatten ((interchanges options source).flatMap Interchange.headings) :=
    Event.Reads.flatten hpieces fun i hi us hus ↦
      hus.shows (interchanges_found options source i hi) (hp i hi)
  rw [he]
  simpa using ((hshow before hbefore).append hall).append (hshow after hafter)

/-- The headers of the envelopes in an X12 stream can be rebuilt from its events, if no header of a
group or a document has more elements than are handed out, or a composite, or a repeated element.
So streams that give the same events have the same headers. -/
theorem headings_rebuilt (options options' : Options) (source source' : Source)
    (hp : ∀ i ∈ interchanges options source, i.Plain)
    (hp' : ∀ i ∈ interchanges options' source', i.Plain) :
    let events := Emission.events (parseStream .lenient options source).emissions
    let events' := Emission.events (parseStream .lenient options' source').emissions
    Event.headings events = (interchanges options source).flatMap Interchange.headings ∧
      (events = events' → (interchanges options source).flatMap Interchange.headings =
        (interchanges options' source').flatMap Interchange.headings) := by
  intro events events'
  have h := (parseStream_shows options source hp).headings
  refine ⟨h, fun he ↦ ?_⟩
  rw [← h, ← (parseStream_shows options' source' hp').headings]
  exact congrArg Event.headings he

/-- The same stream on one line, and with a line for each segment. -/
theorem headings_rebuilt_lines :
    let options : Options := { trims := false }
    let segments := ["ISA*00**00*  *ZZ*A *ZZ* *210101*1253*U*00401*7*0*P*:",
      "GS*PO* *B*20210101**1*X", "ST*850* ", "SE*2* ", "GE*1*1", "IEA*1*7"]
    let source : Source := .text (segments.flatMap fun s ↦ s.toList ++ ['~'])
    let source' : Source := .text (segments.flatMap fun s ↦ s.toList ++ ['~', '\r', '\n'])
    let shown := (interchanges options source).flatMap Interchange.headings
    shown.map (·.level) = [.interchange, .group, .document] ∧
      Event.headings (Emission.events (parseStream .lenient options source).emissions) = shown ∧
      shown = (interchanges options source').flatMap Interchange.headings := by
  intro options segments source source' shown
  have hp : ∀ i ∈ interchanges options source, i.Plain := by decide +kernel
  have hp' : ∀ i ∈ interchanges options source', i.Plain := by decide +kernel
  obtain ⟨hshown, hsame⟩ := headings_rebuilt options options source source' hp hp'
  exact ⟨by decide +kernel, hshown, hsame (by decide +kernel)⟩

end Edi
