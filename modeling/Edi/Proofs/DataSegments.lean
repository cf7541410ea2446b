import Edi.Proofs.Envelope.Unlooped
import Edi.Proofs.Output
import Edi.Proofs.Segment.Shown

namespace Edi

namespace Event

/-- The elements of a name, each with its attributes and what stands before its end. -/
def contents (name : String) : List Event → List (Attributes × List Event)
  | [] => []
  | elementStart n a :: es =>
    if n = name then (a, es.takeWhile (!·.isEndOf name)) :: contents name es
    else contents name es
  | _ :: es => contents name es

def isOuter : Event → Bool
  | elementStart name _ | elementEnd name => name ≠ ElementName.segment
  | text _ => false
  | _ => true

variable {name : String} {us : List Event} {b : Attributes × List Event}

theorem reads_contents_of_not_start (h : ∀ e ∈ us, e.isStartOf name = false) :
    Reads (contents name) us [] := by
  intro es
  induction us with
  | nil => rfl
  | cons e us ih =>
    obtain ⟨he, hus⟩ := List.forall_mem_cons.1 h
    cases e with
    | elementStart n a =>
      have hn : n ≠ name := by simpa [isStartOf] using he
      simpa [contents, hn] using ih hus
    | _ => simpa [contents] using ih hus

theorem reads_contents_element (h : ∀ e ∈ b.2, e.name? ≠ some name) :
    Reads (contents name) (element name b) [b] := by
  intro es
  have hinner : ∀ e ∈ b.2 ++ [elementEnd name], e.isStartOf name = false :=
    List.forall_mem_append.2 ⟨fun e he ↦ isStartOf_eq_false (h e he), by simp [isStartOf]⟩
  have htake : (b.2 ++ elementEnd name :: es).takeWhile (!·.isEndOf name) = b.2 := by
    rw [List.takeWhile_append_of_pos fun e he ↦ by simp [isEndOf_eq_false (h e he)],
      List.takeWhile_cons_of_neg (by simp [isEndOf]), List.append_nil]
  have hrest := reads_contents_of_not_start hinner es
  simp only [List.append_assoc, List.singleton_append, List.nil_append] at hrest
  simp [element, contents, htake, hrest]

theorem reads_texts (us : List Event) : Reads texts us (texts us) := texts_append us

end Event

namespace Role

def isData : Role → Bool
  | interchangeData | data => true
  | _ => false

end Role

/-- The segments of an interchange that are neither headers nor trailers. -/
def Interchange.data (i : Interchange) : List Segment :=
  i.body.filter fun s ↦ (i.standard.role s.tag).isData

theorem Segment.name_of_mem_block {s : Segment} {e : Event} (he : e ∈ s.block.2) :
    e.name? ≠ some ElementName.segment := by
  intro hn
  have hb : Event.Balanced partNames s.block.2 :=
    Event.balanced_flatMap fun f _ ↦ fieldEvents_balanced (List.Subset.refl _) s.tag f
  exact absurd (hb.name_mem he hn) (by decide)

theorem Segment.Brings.unlooped {standard : Standard} {s : Segment} {es : List Event}
    (h : s.Brings standard es) :
    if (standard.role s.tag).isData then es.filter (!·.isLoop) = s.events
    else ∀ e ∈ es, e.isOuter := by
  obtain ⟨tables, e, t, -, hp, rfl⟩ := h
  generalize standard.role s.tag = role at hp
  cases hp with
  | groupHeader | groupTrailer | documentHeader | interchangeTrailer =>
    exact List.forall_mem_singleton.2 rfl
  | documentTrailer d =>
    have hc : (e.documentClosed s d).announced ++
        Emission.events (e.documentClosed s d).completed =
          LoopNesting.endEvents d.loops.frames ++ [.elementEnd ElementName.transaction] := by
      simp [Envelope.documentClosed, LoopNesting.closeAll, Emission.events]
    have hl : ∀ e ∈ LoopNesting.endEvents d.loops.frames, e.isOuter := fun e he ↦ by
      obtain ⟨_, -, rfl⟩ := List.mem_map.1 he
      rfl
    rw [hc]
    exact List.forall_mem_append.2 ⟨hl, List.forall_mem_singleton.2 rfl⟩
  | interchangeData =>
    have he : (s.events ++ []).filter (!·.isLoop) = s.events := by
      rw [List.append_nil, s.unlooped_events]
    exact he
  | data d _ hr =>
    have he : ((d.loops.transition s.tag).2.1 ++ s.events ++ []).filter (!·.isLoop) =
        s.events := by
      rw [List.append_nil, List.filter_append, LoopNesting.unlooped_transition, s.unlooped_events]
      rfl
    rcases hr with rfl | rfl <;> exact he

namespace Event

variable {β : Type} {read : List Event → List β} {f : Segment → List β}

/-- A way to read the events of which only data segments give anything. -/
structure ReadsData (read : List Event → List β) (f : Segment → List β) : Prop where
  outer {us : List Event} (h : ∀ e ∈ us, e.isOuter) : Reads read us []
  segment {s : Segment} (h : s.Flat) : Reads read s.events (f s)

theorem Reads.of_filter {p : Event → Bool} {us : List Event} {bs : List β}
    (h : Reads read (us.filter p) bs) : Reads (fun es ↦ read (es.filter p)) us bs := by
  intro es
  simpa only [List.filter_append] using h (es.filter p)

namespace ReadsData

variable (hr : ReadsData read f)

include hr

theorem unlooped_outer {us : List Event} (h : ∀ e ∈ us, e.isOuter) :
    Reads (fun es ↦ read (es.filter (!·.isLoop))) us [] :=
  .of_filter (hr.outer fun e he ↦ h e (List.mem_filter.1 he).1)

theorem interchange {i : Interchange} {es : List Event} (h : i.Brings es) (hf : i.Found) :
    Reads (fun es ↦ read (es.filter (!·.isLoop))) es (i.data.flatMap f) := by
  obtain ⟨pieces, hp, rfl⟩ := h
  have hstart : ∀ e ∈ (Envelope.start i.standard i.header).announced, e.isOuter :=
    List.all_eq_true.1 rfl
  let g (s : Segment) : List β := if (i.standard.role s.tag).isData then f s else []
  have hdata : i.data.flatMap f = i.body.flatMap g := by
    rw [← flatMap_filter_of_nil fun s hs ↦ if_neg (ne_true_of_eq_false hs)]
    exact List.flatMap_congr fun s hs ↦ (if_pos (List.mem_filter.1 hs).2).symm
  have hbody : Reads (fun es ↦ read (es.filter (!·.isLoop))) pieces.flatten (i.body.flatMap g) := by
    refine Reads.flatten hp fun s hs us hus ↦ ?_
    have hsplit := hus.unlooped
    simp only [g]
    split at hsplit
    · next hd =>
      rw [if_pos hd]
      refine .of_filter ?_
      rw [hsplit]
      exact hr.segment (hf.flat hs)
    · next hd =>
      rw [if_neg hd]
      exact hr.unlooped_outer hsplit
  rw [hdata]
  exact (hr.unlooped_outer hstart).append hbody

theorem stream (hnil : read [] = []) (options : Options) (source : Source) :
    read ((Emission.events (parseStream .lenient options source).emissions).filter
      (!·.isLoop)) = ((interchanges options source).flatMap Interchange.data).flatMap f := by
  obtain ⟨before, pieces, after, hp, he, hframe⟩ := parseStream_brings options source
  have houter : ∀ e ∈ documentFrame, e.isOuter := by decide
  obtain ⟨hbefore, hafter⟩ := List.forall_mem_append.1 hframe
  have hall := Reads.flatten hp fun i hi us hus ↦
    hr.interchange hus (interchanges_found options source i hi)
  have h := ((hr.unlooped_outer fun e he ↦ houter e (hbefore e he)).append hall).append
    (hr.unlooped_outer fun e he ↦ houter e (hafter e he))
  rw [he, h.eq hnil, List.nil_append, List.append_nil, List.flatMap_assoc]

end ReadsData

theorem readsData_texts : ReadsData texts Segment.leaves where
  outer {us} h := by
    have hnil : texts us = [] := List.filterMap_eq_nil_iff.2 fun e he ↦ by
      have hout := h e he
      cases e <;> simp_all [isOuter]
    exact hnil ▸ reads_texts us
  segment {s} h := by
    have ht : texts s.events = s.leaves := by
      rw [s.events_eq, texts_element, (Segment.block_shown h).texts]
    exact ht ▸ reads_texts s.events

theorem readsData_contents : ReadsData (contents ElementName.segment) fun s ↦ [s.block] where
  outer h := reads_contents_of_not_start fun e he ↦ by
    have hout := h e he
    cases e <;> simp_all [isOuter, isStartOf]
  segment _ := reads_contents_element fun _ he ↦ Segment.name_of_mem_block he

end Event

/-- All data comes out, complete and in order. Where a stream is read to its end, every interchange
in it is complete, and apart from loops the events hold one element for each segment that is neither
a header nor a trailer, which shows its fields, and no other text than theirs. -/
theorem parseStream_shows_data (policy : Policy) (options : Options) (source : Source)
    {closings : List Closing} (h : (parseStream policy options source).result = .ok closings) :
    let found := interchanges options source
    let data := found.flatMap Interchange.data
    let events :=
      (Emission.events (parseStream policy options source).emissions).filter (!·.isLoop)
    let blocks := Event.contents ElementName.segment events
    found.length = closings.length ∧ (∀ i ∈ found, i.isComplete) ∧
      (∀ s ∈ data, Positioned s.fields) ∧ List.Forall₂ Segment.Shown data blocks ∧
      Event.texts events = data.flatMap Segment.leaves ∧
      blocks.flatMap (fun b ↦ Event.texts b.2) = data.flatMap Segment.leaves := by
  intro found data events blocks
  have hlenient := parseStream_lenient_of_ok h
  rw [hlenient] at h
  obtain ⟨hlength, hcomplete⟩ := parseStream_complete h
  have hmem : ∀ s ∈ data, ∃ i ∈ found, s ∈ i.body := fun s hs ↦ by
    obtain ⟨i, hi, hs⟩ := List.mem_flatMap.1 hs
    exact ⟨i, hi, (List.mem_filter.1 hs).1⟩
  have hfound := interchanges_found options source
  have hblocks : blocks = data.map Segment.block := by
    simp only [blocks, events, hlenient]
    rw [Event.readsData_contents.stream rfl, List.map_eq_flatMap]
  have htexts : Event.texts events = data.flatMap Segment.leaves := by
    simp only [events, hlenient]
    exact Event.readsData_texts.stream rfl options source
  have hshown : ∀ s ∈ data, s.Shown s.block := fun s hs ↦ by
    obtain ⟨i, hi, hs⟩ := hmem s hs
    exact Segment.block_shown ((hfound i hi).flat hs)
  refine ⟨hlength, hcomplete, fun s hs ↦ ?_, ?_, htexts, ?_⟩
  · obtain ⟨i, hi, hs⟩ := hmem s hs
    exact (hfound i hi).positioned hs
  · rw [hblocks, List.forall₂_map_right_iff, List.forall₂_same]
    exact hshown
  · rw [hblocks, List.flatMap_map]
    exact List.flatMap_congr fun s hs ↦ (hshown s hs).texts

/-- Repeated fields, and a composite of which the first and the last part are empty. -/
theorem parseStream_shows_data_repeated :
    let source := Source.text ("UNB+UNOC:4+A+B+240101:1200+1'UNH+1+ORDERS:D:96A:UN'" ++
      "FTX+A*B++:X:'BGM'UNT+4+1'UNZ+1+1'").toList
    let x := parseStream .strict {} source
    let events := (Emission.events x.emissions).filter (!·.isLoop)
    (∃ closings, x.result = .ok closings ∧ closings.length = 1) ∧
      (Event.contents ElementName.segment events).map (Event.contents ElementName.element ·.2) =
        [[(.ofList [("Id", "FTX01")], [.text "A"]), (.ofList [("Id", "FTX01")], [.text "B"]),
          (.ofList [("Id", "FTX03"), ("Composite", "yes")],
            Event.element ElementName.subElement (.ofList [("Sequence", "2")], [.text "X"]))],
          []] ∧
      Event.texts events = ["A", "B", "X"] := by
  intro source x events
  have hl : x.result.toOption.map List.length = some 1 := by decide +kernel
  cases hx : x.result with
  | error e => simp [hx, Except.toOption] at hl
  | ok closings =>
    obtain ⟨-, -, -, -, htexts, -⟩ := parseStream_shows_data .strict {} source hx
    refine ⟨⟨closings, rfl, by simpa [hx, Except.toOption] using hl⟩, by decide +kernel, ?_⟩
    exact htexts.trans (by decide +kernel)

end Edi
