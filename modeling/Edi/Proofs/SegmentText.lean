import Edi.Proofs.Conservation
import Edi.Proofs.Tiling

namespace Edi

theorem Span.slice_self (text : List Char) (a : Nat) : slice text ⟨a, a⟩ = [] := by
  simp [slice, length]

theorem Span.slice_to_end (text : List Char) (a : Nat) :
    slice text ⟨a, text.length⟩ = text.drop a := by
  apply List.take_of_length_le
  simp [length]

namespace Scanner

variable {t u : Scanner} {text bs : List Char} {last : Span} {s : Segment}

theorem skipBlank_segmentText (hb : Text.IsBlank bs) (h : t.cursor.Holds bs)
    (hl : t.cursor.last ≠ .endOfInput) (hs : t.skipBlank = (.ok false, u)) :
    u.segmentText = bs.reverse ++ t.segmentText := by
  induction bs generalizing t with
  | nil =>
    obtain ⟨k, -, -, hkl, hn⟩ := h.next_nil Source.holds_forecast
    rw [if_neg hl] at hn
    rw [skipBlank_eq] at hs
    simp only [next, hn, leave, back, Cursor.back, hkl] at hs
    obtain ⟨-, rfl⟩ := Prod.mk.inj hs
    simp
  | cons b bs ih =>
    obtain ⟨hc, hb⟩ := List.forall_mem_cons.1 hb
    obtain ⟨v, hv, hh, -, hvl, -⟩ := next_of_holds_cons h
    rw [skipBlank_eq] at hs
    simp only [hv, hc, ↓reduceIte] at hs
    rw [ih hb hh (by simp [hvl]) hs, (reads_of_next hv).text]
    simp

/-- The scanner shows the text of the segment that `last` spans and what it has passed over
since. -/
structure ShowsLast (text : List Char) (last : Span) (t : Scanner) : Prop where
  offset_le : t.offset ≤ text.length
  stands : t.StandsAfter text last.stop
  shows : t.segmentText.reverse = last.slice text ++ Span.slice text ⟨last.stop, t.offset⟩

theorem showsLast_start {source : Source} (h : source.Holds text) (delimiters : Delimiters)
    (limits : Limits) : (ofRemainder delimiters limits { source }).ShowsLast text ⟨0, 0⟩ where
  offset_le := Nat.zero_le _
  stands := standsAfter_start h delimiters limits
  shows := by simp [ofRemainder, offset, Cursor.ofRemainder, Span.slice, Span.length]

theorem ShowsLast.of_none (h : t.ShowsLast text last) (ht : t.segment = (.ok none, u)) :
    u.ShowsLast text last ∧ u.offset = text.length := by
  have hu := h.stands.of_none ht
  obtain ⟨hb, -, ho, -⟩ := isBlank_of_segment h.stands.holds h.stands.last_ne ht
  obtain ⟨v, hv, -⟩ := skipBlank_of_isBlank hb h.stands.holds h.stands.last_ne
  simp only [segment, hv] at ht
  obtain ⟨-, rfl⟩ := Prod.mk.inj ht
  have hle := h.offset_le
  have ho : v.offset = text.length := by
    rw [ho, List.length_drop]
    omega
  refine ⟨⟨Nat.le_of_eq ho, hu, ?_⟩, ho⟩
  rw [skipBlank_segmentText hb h.stands.holds h.stands.last_ne hv, List.reverse_append,
    List.reverse_reverse, h.shows, ho, Span.slice_append text h.stands.stop_le hle,
    Span.slice_to_end text t.offset, List.append_assoc]

theorem ShowsLast.of_some (h : t.ShowsLast text last) (ht : t.segment = (.ok (some s), u)) :
    u.ShowsLast text s.span ∧ u.offset = s.span.stop := by
  obtain ⟨⟨-, hle, hs⟩, -, hu⟩ := h.stands.of_some ht
  have ho : u.offset = s.span.stop := (segment_endsAt ht).offset
  refine ⟨⟨ho ▸ hle, hu, ?_⟩, ho⟩
  rw [String.ofList_injective hs, ho, Span.slice_self, List.append_nil]

theorem ShowsLast.lastSegmentText (h : t.ShowsLast text last) :
    t.lastSegmentText =
      String.ofList (last.slice text ++ Span.slice text ⟨last.stop, t.offset⟩) := by
  rw [Scanner.lastSegmentText, h.shows]

theorem ShowsLast.ended (h : t.ShowsLast text last) (ho : t.offset = text.length) (n : Nat) :
    (after n t).ShowsLast text last ∧ (after n t).offset = text.length ∧
      spans (t.calls n) = [] := by
  induction n generalizing t with
  | zero => exact ⟨h, ho, rfl⟩
  | succ n ih =>
    have hh : t.cursor.Holds [] := by simpa [ho] using h.stands.holds
    obtain ⟨u, hu, -⟩ := skipBlank_of_isBlank (by simp [Text.IsBlank]) hh h.stands.last_ne
    have ht : t.segment = (.ok none, u) := by simp only [segment, hu]
    obtain ⟨hv, hvo⟩ := h.of_none ht
    simp only [Scanner.after, calls, ht]
    exact ih hv hvo

/-- While no call for a segment fails, the scanner shows the last one that came. It has passed over
nothing since, or all that was left. -/
theorem ShowsLast.after (h : t.ShowsLast text last) (ho : t.offset = last.stop) (n : Nat)
    (hn : ∀ x ∈ t.calls n, x.1.isOk) :
    (t.after n).ShowsLast text ((spans (t.calls n)).getLastD last) ∧
      (t.after n).offset =
        if ∃ x ∈ t.calls n, x.1 = .ok none then text.length
        else ((spans (t.calls n)).getLastD last).stop := by
  induction n generalizing t last with
  | zero =>
    refine ⟨h, ?_⟩
    simpa [Scanner.after, calls, spans] using ho
  | succ n ih =>
    obtain ⟨hok, hn⟩ := List.forall_mem_cons.1 hn
    rcases ht : t.segment with ⟨e | _ | s, u⟩
    · simp [ht, Except.isOk, Except.toBool] at hok
    · obtain ⟨hu, huo⟩ := h.of_none ht
      obtain ⟨hv, hvo, hs⟩ := hu.ended huo n
      have hx : spans (t.calls (n + 1)) = spans (u.calls n) := by
        rw [calls, ht]
        rfl
      have hc : ∃ x ∈ t.calls (n + 1), x.1 = .ok none :=
        ⟨t.segment, List.mem_cons_self, congrArg Prod.fst ht⟩
      rw [Scanner.after, ht, hx, hs, if_pos hc]
      exact ⟨hv, hvo⟩
    · obtain ⟨hu, huo⟩ := h.of_some ht
      rw [ht] at hn
      have hx : spans (t.calls (n + 1)) = s.span :: spans (u.calls n) := by
        rw [calls, ht]
        rfl
      have hc : (∃ x ∈ t.calls (n + 1), x.1 = .ok none) ↔ ∃ x ∈ u.calls n, x.1 = .ok none := by
        simp [calls, ht]
      rw [Scanner.after, ht, hx, List.getLastD_cons]
      simp only [hc]
      exact ih hu huo hn

/-- While no call for a segment fails, the text shown is that of the last segment that came, its
terminator included, until a call comes to the end: then what was left is shown behind it. -/
theorem lastSegmentText_of_calls {source : Source} (hs : source.Holds text)
    (delimiters : Delimiters) (limits : Limits) (n : Nat)
    (h : ∀ x ∈ (ofRemainder delimiters limits { source }).calls n, x.1.isOk) :
    let t := ofRemainder delimiters limits { source }
    let last := (spans (t.calls n)).getLastD ⟨0, 0⟩
    ((∀ x ∈ t.calls n, x.1 ≠ .ok none) →
      (t.after n).lastSegmentText = String.ofList (last.slice text)) ∧
    ((∃ x ∈ t.calls n, x.1 = .ok none) → Text.IsBlank (text.drop last.stop) ∧
      (t.after n).lastSegmentText = String.ofList (last.slice text ++ text.drop last.stop)) := by
  intro t last
  have hl : (t.after n).ShowsLast text last := ((showsLast_start hs _ _).after rfl n h).1
  have ho : (t.after n).offset =
      if ∃ x ∈ t.calls n, x.1 = .ok none then text.length else last.stop :=
    ((showsLast_start hs _ _).after rfl n h).2
  constructor
  · intro hn
    rw [if_neg (fun ⟨x, hx, he⟩ ↦ hn x hx he)] at ho
    rw [hl.lastSegmentText, ho, Span.slice_self, List.append_nil]
  · intro hn
    rw [if_pos hn] at ho
    have hb := hl.stands.blank
    rw [ho, Span.slice_to_end] at hb
    refine ⟨hb, ?_⟩
    rw [hl.lastSegmentText, ho, Span.slice_to_end]

/-- Two segments with a line end between them, then blanks that a third call passes over. -/
theorem lastSegmentText_of_calls_blanks :
    let text := " AB+c?'d'\nE' \t\n".toList
    let t := ofRemainder .edifact {} { source := .text text }
    (∀ x ∈ t.calls 3, x.1.isOk) ∧ (∀ x ∈ t.calls 2, x.1 ≠ .ok none) ∧
      (t.after 2).lastSegmentText = "E'" ∧ (∃ x ∈ t.calls 3, x.1 = .ok none) ∧
      Text.IsBlank (text.drop 12) ∧ (t.after 3).lastSegmentText = "E' \t\n" := by
  intro text t
  have hs : (Source.text text).Holds text := rfl
  have h₂ : ∀ x ∈ t.calls 2, x.1.isOk := by decide +kernel
  have h₃ : ∀ x ∈ t.calls 3, x.1.isOk := by decide +kernel
  have hn : ∀ x ∈ t.calls 2, x.1 ≠ .ok none := by decide +kernel
  have he : ∃ x ∈ t.calls 3, x.1 = .ok none := by decide +kernel
  have hl : (spans (t.calls 2)).getLastD ⟨0, 0⟩ = ⟨10, 12⟩ ∧
      (spans (t.calls 3)).getLastD ⟨0, 0⟩ = ⟨10, 12⟩ := by decide +kernel
  obtain ⟨hp, -⟩ := lastSegmentText_of_calls hs .edifact {} 2 h₂
  obtain ⟨-, hr⟩ := lastSegmentText_of_calls hs .edifact {} 3 h₃
  have hp := hp hn
  obtain ⟨hb, hr⟩ := hr he
  rw [hl.1] at hp
  rw [hl.2] at hb hr
  exact ⟨h₃, hn, hp, he, hb, hr⟩

/-- A line end after the only segment is shown as a part of it. -/
theorem lastSegmentText_line_end :
    let text := "A'\n".toList
    let t := ofRemainder .edifact {} { source := .text text }
    (∀ x ∈ t.calls 2, x.1.isOk) ∧ spans (t.calls 2) = [⟨0, 2⟩] ∧
      String.ofList (Span.slice text ⟨0, 2⟩) = "A'" ∧ (t.after 2).lastSegmentText = "A'\n" := by
  decide +kernel

end Scanner

end Edi
