import Edi.Proofs.Scanner.Trace
import Edi.Proofs.Segment.Feed
import Mathlib.Data.List.Chain

namespace Edi

namespace Span

def slice (text : List Char) (s : Span) : List Char := (text.drop s.start).take s.length

/-- The spans follow each other from `start` on, and one character comes after each. The last of
these stands before `stop`. -/
def Tile : Nat → List Span → Nat → Prop
  | start, [], stop => start = stop
  | start, s :: ss, stop => s.start = start ∧ start ≤ s.stop ∧ Tile (s.stop + 1) ss stop

variable {text cs rest : List Char} {a b c : Nat} {ss : List Span}

theorem slice_of_drop (h : text.drop a = cs ++ rest) : slice text ⟨a, a + cs.length⟩ = cs := by
  simp [slice, length, h]

theorem slice_append (text : List Char) (hab : a ≤ b) (hbc : b ≤ c) :
    slice text ⟨a, c⟩ = slice text ⟨a, b⟩ ++ slice text ⟨b, c⟩ := by
  have hd : text.drop b = (text.drop a).drop (b - a) := by
    rw [List.drop_drop, Nat.add_sub_cancel' hab]
  have hc : c - a = (b - a) + (c - b) := by omega
  simp only [slice, length, hd, hc, List.take_add]

theorem Tile.concat (h : Tile a ss b) (hb : b ≤ c) : Tile a (ss ++ [⟨b, c⟩]) (c + 1) := by
  induction ss generalizing a with
  | nil =>
    obtain rfl : a = b := h
    exact ⟨rfl, hb, rfl⟩
  | cons s ss ih => exact ⟨h.1, h.2.1, ih h.2.2⟩

theorem Tile.le (h : Tile a ss b) : a ≤ b := by
  induction ss generalizing a with
  | nil => exact Nat.le_of_eq h
  | cons s ss ih =>
    have := ih h.2.2
    have := h.2.1
    omega

end Span

namespace Segment

/-- After its tag and one character more the fields of a segment follow each other, the last of
them up to its terminator. Without fields this one character is the terminator. -/
def Tiled (s : Segment) : Prop :=
  s.tag ≠ "" ∧ Span.Tile (s.span.start + s.tag.length + 1) (s.fields.map (·.span)) s.span.stop

theorem Tiled.two_le {s : Segment} (h : s.Tiled) : 2 ≤ s.span.length := by
  have hl : s.tag.length ≠ 0 := fun hl ↦ h.1 (String.length_eq_zero_iff.1 hl)
  have := h.2.le
  simp only [Span.length]
  omega

def Part.TiledTo (start stop : Nat) : Part → Prop
  | tag letters => start + letters.length = stop
  | body b => b.tag ≠ "" ∧
      Span.Tile (start + b.tag.length + 1) (b.fields.reverse.map (·.span)) b.start ∧ b.start ≤ stop

variable {d : Delimiters} {trims : Bool} {maxLength start offset : Nat} {p p' : Part} {c : Char}
  {cs : List Char} {k : CharClass} {s : Segment}

theorem Body.endOccurrence_tiled {b : Body} (h : Part.TiledTo start offset (.body b))
    (trims repeats : Bool) :
    Part.TiledTo start (offset + 1) (.body (b.endOccurrence trims offset repeats)) := by
  refine ⟨h.1, ?_, Nat.le_refl _⟩
  simpa [endOccurrence] using h.2.1.concat h.2.2

theorem recognizer_feed_tiledTo (h : p.TiledTo start offset)
    (hf : (recognizer d trims maxLength start).feed p (offset + 1) c k = .more p') :
    p'.TiledTo start (offset + 1) := by
  cases recognizer_feed_eq_more hf with
  | @letter letters =>
    have hl : start + letters.length = offset := h
    rw [Part.TiledTo, List.length_cons, ← hl, Nat.add_assoc]
  | @tagEnd letters _ hne =>
    have hl : start + letters.length = offset := h
    exact ⟨by simpa using hne, by simp [Span.Tile, hl], Nat.le_refl _⟩
  | grown => exact ⟨h.1, h.2.1, Nat.le_succ_of_le h.2.2⟩
  | ended => exact Body.endOccurrence_tiled h _ _

theorem recognizer_take_tiled (h : p.TiledTo start offset)
    (hf : (recognizer d trims maxLength start).feed p (offset + 1) c k = .take (.ok s)) :
    s.span = ⟨start, offset + 1⟩ ∧ s.Tiled := by
  cases recognizer_feed_eq_take hf with
  | @tag letters _ hne =>
    have hl : start + letters.length = offset := h
    exact ⟨rfl, by simpa using hne, by simp [Span.Tile, hl]⟩
  | body =>
    obtain ⟨ht, hs, -⟩ := Body.endOccurrence_tiled h trims false
    exact ⟨rfl, ht, hs⟩

theorem tiled_of_answers
    (h : (recognizer d trims maxLength start).Answers d start (.tag []) cs c s) :
    s.span = ⟨start, start + (cs ++ [c]).length⟩ ∧ s.Tiled := by
  refine h.invariant (p := fun cs p ↦ p.TiledTo start (start + cs.length))
    (q := fun cs c s ↦ s.span = ⟨start, start + (cs ++ [c]).length⟩ ∧ s.Tiled) rfl ?_ ?_
  · intro cs c p p' hp hf
    rw [List.length_append, List.length_singleton, ← Nat.add_assoc]
    exact recognizer_feed_tiledTo hp hf
  · intro cs c p s hp hf
    rw [List.length_append, List.length_singleton, ← Nat.add_assoc]
    exact recognizer_take_tiled hp hf

end Segment

namespace Scanner

variable {t u : Scanner} {text : List Char} {stop : Nat} {s : Segment}

def calls : Nat → Scanner → List (Except Error (Option Segment) × Scanner)
  | 0, _ => []
  | n + 1, t => t.segment :: calls n t.segment.2

def spans (xs : List (Except Error (Option Segment) × Scanner)) : List Span :=
  xs.filterMap fun x ↦ x.1.toOption.join.map (·.span)

/-- The scanner stands in a text, and there is nothing but blanks between the offset `stop` and its
place. -/
structure StandsAfter (text : List Char) (stop : Nat) (t : Scanner) : Prop where
  stop_le : stop ≤ t.offset
  blank : Text.IsBlank (Span.slice text ⟨stop, t.offset⟩)
  holds : t.cursor.Holds (text.drop t.offset)
  last_ne : t.cursor.last ≠ .endOfInput

theorem standsAfter_start {source : Source} (h : source.Holds text) (delimiters : Delimiters)
    (limits : Limits) : (ofRemainder delimiters limits { source }).StandsAfter text 0 where
  stop_le := Nat.le_refl _
  blank := by simp [Text.IsBlank, Span.slice, Span.length, offset, ofRemainder, Cursor.ofRemainder]
  holds := ⟨text, h, rfl, nofun⟩
  last_ne := LastRead.noConfusion

theorem StandsAfter.blank_append {bs rest : List Char} (h : t.StandsAfter text stop)
    (ht : text.drop t.offset = bs ++ rest) (hb : Text.IsBlank bs) :
    Text.IsBlank (Span.slice text ⟨stop, t.offset + bs.length⟩) := by
  rw [Span.slice_append text h.stop_le (Nat.le_add_right _ _), Span.slice_of_drop ht]
  exact List.forall_mem_append.2 ⟨h.blank, hb⟩

theorem StandsAfter.of_none (h : t.StandsAfter text stop) (ht : t.segment = (.ok none, u)) :
    u.StandsAfter text stop := by
  obtain ⟨hb, hh, ho, hl⟩ := isBlank_of_segment h.holds h.last_ne ht
  have hd : text.drop t.offset = text.drop t.offset ++ [] := (List.append_nil _).symm
  refine ⟨ho ▸ Nat.le_add_right_of_le h.stop_le, ho ▸ h.blank_append hd hb, ?_, hl⟩
  rwa [ho, ← List.drop_drop, List.drop_length]

theorem StandsAfter.of_some (h : t.StandsAfter text stop) (ht : t.segment = (.ok (some s), u)) :
    (s.Tiled ∧ s.span.stop ≤ text.length ∧
        u.lastSegmentText = String.ofList (s.span.slice text)) ∧
      (stop ≤ s.span.start ∧ Text.IsBlank (Span.slice text ⟨stop, s.span.start⟩)) ∧
      u.StandsAfter text s.span.stop := by
  obtain ⟨bs, cs, c, rest, hd, hb, ha, hu, ho, hl, hh⟩ := segment_reads h.holds h.last_ne ht
  obtain ⟨hs, htiled⟩ := Segment.tiled_of_answers ha
  rw [List.append_assoc] at hd
  have hbody : text.drop (t.offset + bs.length) = (cs ++ [c]) ++ rest := by
    rw [← List.drop_drop, hd, List.drop_left]
  have hslice : s.span.slice text = cs ++ [c] := by
    rw [hs]
    exact Span.slice_of_drop hbody
  have hstart : s.span.start = t.offset + bs.length := by rw [hs]
  have hstop : s.span.stop = u.offset := by rw [hs, ho]
  refine ⟨⟨htiled, ?_, ?_⟩, ⟨?_, ?_⟩, ?_⟩
  · have hl := congrArg List.length hbody
    rw [List.length_drop, List.length_append] at hl
    have : (cs ++ [c]).length ≠ 0 := by simp
    omega
  · rw [hslice, lastSegmentText, hu, List.reverse_reverse]
  · exact hstart ▸ Nat.le_add_right_of_le h.stop_le
  · exact hstart ▸ h.blank_append hd hb
  · refine ⟨Nat.le_of_eq hstop, ?_, ?_, hl⟩
    · simp [hstop, Text.IsBlank, Span.slice, Span.length]
    · rwa [ho, ← List.drop_drop, hbody, List.drop_left]

theorem StandsAfter.calls (h : t.StandsAfter text stop) (n : Nat)
    (hn : ∀ x ∈ t.calls n, x.1.isOk) :
    (∀ x ∈ t.calls n, ∀ s, x.1 = .ok (some s) →
      s.Tiled ∧ s.span.stop ≤ text.length ∧
        x.2.lastSegmentText = String.ofList (s.span.slice text)) ∧
    ∀ start, (⟨start, stop⟩ :: spans (t.calls n)).IsChain fun a b ↦
      a.stop ≤ b.start ∧ Text.IsBlank (Span.slice text ⟨a.stop, b.start⟩) := by
  induction n generalizing t stop with
  | zero => exact ⟨by simp [Scanner.calls], by simp [Scanner.calls, spans]⟩
  | succ n ih =>
    rcases hs : t.segment with ⟨e | _ | s, u⟩ <;>
      simp only [Scanner.calls, hs, List.forall_mem_cons, spans, List.filterMap_cons] at hn ⊢
    · exact nomatch hn.1
    · obtain ⟨hx, hc⟩ := ih (h.of_none hs) hn.2
      exact ⟨⟨by simp, hx⟩, hc⟩
    · obtain ⟨hx, hgap, hu⟩ := h.of_some hs
      obtain ⟨hxs, hc⟩ := ih hu hn.2
      refine ⟨⟨?_, hxs⟩, fun start ↦ .cons_cons hgap (hc s.span.start)⟩
      rintro s' ⟨⟩
      exact hx

/-- While no call for a segment fails, the segments tile the text but for blanks: each is just what
was read of the text for it, it comes after the one before, and its fields leave no gaps in it. -/
theorem segments_tile {source : Source} (hs : source.Holds text) (delimiters : Delimiters)
    (limits : Limits) (n : Nat)
    (h : ∀ x ∈ (ofRemainder delimiters limits { source }).calls n, x.1.isOk) :
    let xs := (ofRemainder delimiters limits { source }).calls n
    (∀ x ∈ xs, ∀ s, x.1 = .ok (some s) → s.Tiled ∧ 2 ≤ s.span.length ∧
      s.span.stop ≤ text.length ∧ x.2.lastSegmentText = String.ofList (s.span.slice text)) ∧
    (⟨0, 0⟩ :: spans xs).IsChain fun a b ↦
      a.stop ≤ b.start ∧ Text.IsBlank (Span.slice text ⟨a.stop, b.start⟩) := by
  intro xs
  obtain ⟨hx, hc⟩ := (standsAfter_start hs delimiters limits).calls n h
  refine ⟨?_, hc 0⟩
  intro x hm s hsome
  obtain ⟨ht, hl⟩ := hx x hm s hsome
  exact ⟨ht, ht.two_le, hl⟩

/-- Two segments between blanks, with repeated, composite and empty elements and a released
terminator, and then none. -/
theorem segments_tile_released :
    let text := " AB+1*2++c:d+?'X'\nC' ".toList
    let delimiters := { Delimiters.edifact with repetition := some '*' }
    let xs := (ofRemainder delimiters {} { source := .text text }).calls 3
    (∀ x ∈ xs, x.1.isOk) ∧ spans xs = [⟨1, 17⟩, ⟨18, 20⟩] ∧
      (∀ x ∈ xs, ∀ s, x.1 = .ok (some s) → s.Tiled ∧ 2 ≤ s.span.length ∧
        s.span.stop ≤ text.length ∧ x.2.lastSegmentText = String.ofList (s.span.slice text)) ∧
      (⟨0, 0⟩ :: spans xs).IsChain fun a b ↦
        a.stop ≤ b.start ∧ Text.IsBlank (Span.slice text ⟨a.stop, b.start⟩) := by
  intro text delimiters xs
  have h : ∀ x ∈ xs, x.1.isOk := by decide +kernel
  have hs : (Source.text text).Holds text := rfl
  exact ⟨h, by decide +kernel, segments_tile hs delimiters {} 3 h⟩

end Scanner

end Edi
