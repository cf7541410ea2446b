import Edi.Proofs.Envelope.Surroundings
import Edi.Proofs.Refusal
import Edi.Proofs.Segment.Flat
import Edi.Proofs.Segment.Numbered
import Edi.Proofs.Validation.Stream

namespace Edi

namespace Event

variable {α β : Type} {read : List Event → List β} {us vs : List Event} {bs cs : List β}

/-- The events `us` are read as `bs`, whatever comes after them. -/
def Reads (read : List Event → List β) (us : List Event) (bs : List β) : Prop :=
  ∀ es, read (us ++ es) = bs ++ read es

theorem reads_nil (read : List Event → List β) : Reads read [] [] := fun _ ↦ rfl

theorem Reads.append (h : Reads read us bs) (h' : Reads read vs cs) :
    Reads read (us ++ vs) (bs ++ cs) := by
  intro es
  rw [List.append_assoc, h, h', List.append_assoc]

theorem Reads.flatten {R : α → List Event → Prop} {f : α → List β} {as : List α}
    {pieces : List (List Event)} (h : List.Forall₂ R as pieces)
    (hR : ∀ a ∈ as, ∀ us, R a us → Reads read us (f a)) :
    Reads read pieces.flatten (as.flatMap f) := by
  induction h with
  | nil => exact reads_nil read
  | cons hd _ ih =>
    obtain ⟨ha, has⟩ := List.forall_mem_cons.1 hR
    exact (ha _ hd).append (ih has)

theorem Reads.eq (h : Reads read us bs) (hnil : read [] = []) : read us = bs := by
  simpa [hnil] using h []

end Event

theorem Scanner.flat_of_mem_segments {t : Scanner} {s : Segment}
    (hd : t.delimiters.subSubElement = none) (h : s ∈ t.segments) : s.Flat := by
  generalize hss : t.segments = ss at h
  induction ss generalizing t with
  | nil => cases h
  | cons s' ss ih =>
    obtain ⟨u, hs, hu⟩ := segment_of_segments_cons hss
    rcases List.mem_cons.1 h with rfl | h
    · exact segment_flat hd hs
    · have hdu : u.delimiters = t.delimiters := by rw [← t.segment_delimiters, hs]
      exact ih (hdu ▸ hd) hu h

/-- The events that a segment of an interchange in place brings about. -/
def Segment.Brings (standard : Standard) (s : Segment) (es : List Event) : Prop :=
  ∃ tables e t, e.standard = standard ∧
    Envelope.Passes tables s e (standard.role s.tag) t ∧
    es = t.announced ++ Emission.events t.completed

namespace Interchange

def Brings (i : Interchange) (es : List Event) : Prop :=
  ∃ pieces, List.Forall₂ (Segment.Brings i.standard) i.body pieces ∧
    es = (Envelope.start i.standard i.header).announced ++ pieces.flatten

def Found (i : Interchange) : Prop :=
  ∃ r r₀ : Reader, r.readHeader = (.ok i.header, r₀) ∧ r.standard = i.standard ∧
    i.body = i.standard.inPlace r₀.scanner.segments

namespace Found

variable {i : Interchange} {s : Segment}

theorem mem_segments (h : i.Found) (hs : s ∈ i.body) :
    ∃ t : Scanner, t.delimiters.subSubElement = none ∧ s ∈ t.segments := by
  obtain ⟨r, r₀, hh, -, hbody⟩ := h
  obtain ⟨rest, hr⟩ :=
    Standing.inPlace_prefix i.standard (.outside .undecided) r₀.scanner.segments
  refine ⟨r₀.scanner, Reader.subSubElement_of_readHeader hh, ?_⟩
  rw [hbody] at hs
  rw [hr]
  exact List.mem_append_left rest hs

theorem flat (h : i.Found) (hs : s ∈ i.body) : s.Flat := by
  obtain ⟨t, hd, ht⟩ := h.mem_segments hs
  exact Scanner.flat_of_mem_segments hd ht

theorem positioned (h : i.Found) (hs : s ∈ i.body) : Positioned s.fields := by
  obtain ⟨t, -, ht⟩ := h.mem_segments hs
  exact Scanner.positioned_of_mem_segments ht

end Found

end Interchange

namespace Reader

open Envelope

variable {r r₀ : Reader} {header : Segment}

theorem run_brings (earlier : List Problem) (tr : Transition) (r : Reader)
    (hn : tr.next.Settled) : ∃ pieces,
    List.Forall₂ (Segment.Brings tr.next.standard)
        (tr.next.standing.inPlace tr.next.standard r.scanner.segments) pieces ∧
      Emission.events (r.run .lenient earlier tr).1.emissions =
        tr.announced ++ Emission.events tr.completed ++ pieces.flatten := by
  have hrun := r.run_lenient earlier tr
  generalize r.scanner = t, (r.run .lenient earlier tr).1 = reading,
    (r.run .lenient earlier tr).2.scanner = t' at hrun ⊢
  induction hrun with
  | @finished tr _ hd =>
    refine ⟨[], ?_, by simp [Transition.read]⟩
    rw [standing_eq_finished hd, Standing.inPlace_finished]
    exact .nil
  | @failed tr x _ _ _ hs | @ended tr x _ _ hs =>
    refine ⟨[], ?_, by simp [Transition.read]⟩
    rw [Scanner.segments_of_ne (by simp [hs])]
    exact .nil
  | @turnedAway tr x _ _ _ hd hs hst =>
    refine ⟨[], ?_, by simp [Transition.read]⟩
    rw [Scanner.segments_of_segment hs,
      Standing.inPlace_cons_of_none (standing_next_of_step_error hn hd hst)]
    exact .nil
  | @step tr next x y _ s _ hd hs hst _ ih =>
    have hpass := step_eq_ok hst
    obtain ⟨pieces, hp, he⟩ := ih (hpass.settled hn hd)
    rw [hpass.standard] at hp
    refine ⟨(next.announced ++ Emission.events next.completed) :: pieces, ?_, ?_⟩
    · have hq := hpass.standing_next hn.toCoherent hd
      rw [Scanner.segments_of_segment hs, Standing.inPlace_cons hq]
      exact .cons ⟨_, _, _, rfl, hpass, rfl⟩ hp
    · simp [Reading.after, he]

theorem parse_brings (earlier : List Problem) (hr : r.envelope = none)
    (hh : r.readHeader = (.ok header, r₀)) :
    Interchange.Brings ⟨r.standard, header, r.standard.inPlace r₀.scanner.segments⟩
      (Emission.events (r.parse .lenient earlier).1.emissions) := by
  obtain ⟨pieces, hp, he⟩ :=
    run_brings earlier (start r.standard header) r₀ (start_settled _ _)
  rw [parse_of_readHeader .lenient earlier hr hh]
  refine ⟨pieces, hp, he.trans ?_⟩
  rw [show Emission.events (start r.standard header).completed = [] from rfl, List.append_nil]

theorem parseAll_brings (options : Options) (earlier : List Problem) (r : Reader)
    (hr : r.envelope = none) : ∃ pieces,
    List.Forall₂ Interchange.Brings (r.interchanges options) pieces ∧
      Emission.events (r.parseAll .lenient options earlier).emissions = pieces.flatten := by
  induction hb : r.scanner.bound using Nat.strongRecOn generalizing earlier r with
  | ind n ih =>
    rcases hh : r.readHeader with ⟨e | header, r₀⟩
    · rw [parseAll_lenient_of_error options earlier hr hh, interchanges_of_error hh]
      exact ⟨[], .nil, rfl⟩
    · have hone := parse_brings earlier hr hh
      rcases parseAll_lenient_of_ok options earlier hr hh with
        ⟨hi, result, ha, -⟩ | ⟨next, earlier', result, hn, hlt, hi, ha, -⟩
      · rw [hi, ha]
        exact ⟨[_], .cons hone .nil, (List.append_nil _).symm⟩
      · obtain ⟨pieces, hp, he⟩ := ih _ (hb ▸ hlt) earlier' next hn rfl
        rw [hi, ha]
        refine ⟨_, .cons hone hp, ?_⟩
        rw [Reading.after, Emission.events_append, he, List.flatten_cons]

theorem interchanges_found (options : Options) (r : Reader) :
    ∀ i ∈ r.interchanges options, i.Found := by
  fun_induction interchanges options r with
  | case1 => simp
  | case2 r header r₀ hh i ih =>
    refine List.forall_mem_cons.2 ⟨⟨r, r₀, hh, rfl, rfl⟩, ?_⟩
    split
    · next hc =>
      split
      · next next hn => exact ih hc next hn
      · simp
    · simp

end Reader

def Event.documentFrame : List Event :=
  [.documentStart, .elementStart ElementName.root .empty, .elementEnd ElementName.root,
    .documentEnd]

theorem Reading.events_framed {α : Type} (x : Reading α) : ∃ before after,
    Emission.events x.framed.emissions = before ++ Emission.events x.emissions ++ after ∧
      ∀ e ∈ before ++ after, e ∈ Event.documentFrame := by
  refine ⟨Emission.events Emission.documentOpening, ?_⟩
  cases hr : x.result with
  | error e => exact ⟨[], by simp [framed_emissions_of_error hr], by decide⟩
  | ok a =>
    exact ⟨Emission.events Emission.documentClosing, by simp [framed_emissions_of_ok hr], by decide⟩

/-- Inside of the document stand the events that the interchanges bring about. -/
theorem parseStream_brings (options : Options) (source : Source) : ∃ before pieces after,
    List.Forall₂ Interchange.Brings (interchanges options source) pieces ∧
      Emission.events (parseStream .lenient options source).emissions =
        before ++ pieces.flatten ++ after ∧
      ∀ e ∈ before ++ after, e ∈ Event.documentFrame := by
  simp only [parseStream, interchanges]
  rcases h : Reader.open? options source with e | _ | r
  · exact ⟨[], [], [], .nil, rfl, by simp⟩
  · obtain ⟨before, after, he, hframe⟩ := Reading.events_framed { result := .ok [] }
    exact ⟨before, [], after, .nil, he, hframe⟩
  · obtain ⟨pieces, hp, he⟩ := r.parseAll_brings options [] (Reader.resume_envelope h)
    obtain ⟨before, after, hf, hframe⟩ := (r.parseAll .lenient options []).events_framed
    exact ⟨before, pieces, after, hp, by rw [hf, he], hframe⟩

theorem interchanges_found (options : Options) (source : Source) :
    ∀ i ∈ interchanges options source, i.Found := by
  simp only [interchanges]
  split
  · exact Reader.interchanges_found options _
  · simp

theorem parseStream_lenient_of_ok {policy : Policy} {options : Options} {source : Source}
    {closings : List Closing} (h : (parseStream policy options source).result = .ok closings) :
    parseStream policy options source = parseStream .lenient options source := by
  rcases ho : Reader.open? options source with e | o
  · simp only [parseStream, ho]
  · rw [parseStream_of_open ho] at h ⊢
    rw [parseStream_of_open ho]
    rcases Remainder.parseAll_accepted_or_refused policy options [] { source } with
      ⟨-, heq⟩ | ⟨ps, p, hr⟩
    · rw [heq]
    · have hresult := h.symm.trans hr.framed.result
      simp at hresult

theorem parseStream_complete {options : Options} {source : Source} {closings : List Closing}
    (h : (parseStream .lenient options source).result = .ok closings) :
    (interchanges options source).length = closings.length ∧
      ∀ i ∈ interchanges options source, i.isComplete := by
  simp only [parseStream, interchanges] at h ⊢
  rcases ho : Reader.open? options source with e | _ | r
  · simp [ho] at h
  · rw [ho] at h
    simp [← Except.ok.inj h]
  · simp only [ho, Reading.framed_result] at h
    exact r.parseAll_lenient_complete options [] (Reader.resume_envelope ho) h

end Edi
