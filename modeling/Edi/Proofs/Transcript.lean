import Edi.Proofs.Reparsing
import Edi.Proofs.SegmentText

namespace Edi

namespace Span

variable {text : List Char} {a b n : Nat} {c : Char}

theorem slice_succ (hab : a ≤ b) (h : text[b]? = some c) :
    slice text ⟨a, b + 1⟩ = slice text ⟨a, b⟩ ++ [c] := by
  obtain ⟨hlt, rfl⟩ := List.getElem?_eq_some_iff.1 h
  have hd : text.drop b = [text[b]] ++ text.drop (b + 1) := List.drop_eq_getElem_cons hlt
  rw [slice_append text hab (Nat.le_succ b)]
  exact congrArg _ (slice_of_drop hd)

theorem length_slice (hb : b ≤ text.length) : (slice text ⟨a, b⟩).length = b - a := by
  simp only [slice, length, List.length_take, List.length_drop]
  omega

theorem slice_slice {s : Span} (ha : a ≤ s.start) (hb : s.stop ≤ b) :
    ((slice text ⟨a, b⟩).drop (s.start - a)).take s.length = s.slice text := by
  have hs : a + (s.start - a) = s.start := by omega
  have hl : min s.length (b - a - (s.start - a)) = s.length := by
    simp only [length]
    omega
  simp only [slice, length, List.drop_take, List.drop_drop, List.take_take] at hl ⊢
  rw [hs, hl]

end Span

namespace Scanner

variable {t u : Scanner} {text : List Char} {retains : Bool} {origin : Nat}

/-- The scanner stands in a text that it has read from the offset `origin` on. If it keeps what it
reads, it has kept just this part. -/
structure Keeps (text : List Char) (retains : Bool) (origin : Nat) (t : Scanner) : Prop where
  within : t.cursor.Within text
  origin_eq : t.origin = origin
  origin_le : origin ≤ t.offset
  /-- Nothing is pushed back that was read before. -/
  origin_lt : t.cursor.last = .character → origin < t.offset
  retained : t.retained =
    if retains then some (Span.slice text ⟨origin, t.offset⟩).reverse else none

theorem keeps_start {rest : Remainder} (h : rest.StandsIn text) (delimiters : Delimiters)
    (limits : Limits) :
    (ofRemainder delimiters limits rest).Keeps text limits.retainsText rest.offset where
  within := h.within _
  origin_eq := rfl
  origin_le := Nat.le_refl _
  origin_lt hl := nomatch hl
  retained := by
    simp [ofRemainder, offset, Cursor.ofRemainder, Span.slice_self]

theorem Keeps.next (h : t.Keeps text retains origin) : t.next.2.Keeps text retains origin := by
  have hw := h.within.next Source.holds_forecast
  have hh := h.within.holds
  have ho := h.origin_le
  cases hd : text.drop t.cursor.offset with
  | nil =>
    rw [hd] at hh
    obtain ⟨j, -, hjo, hjl, hn⟩ := hh.next_nil Source.holds_forecast
    have hu : t.next.2 = { t with cursor := j } := by
      by_cases hl : t.cursor.last = .endOfInput <;> simp [Scanner.next, hn, hl]
    rw [hn] at hw
    rw [hu]
    have hjo : ({ t with cursor := j } : Scanner).offset = t.offset := hjo
    refine ⟨hw, h.origin_eq, hjo ▸ ho, ?_, hjo ▸ h.retained⟩
    intro hl
    simp [hjl] at hl
  | cons c cs =>
    rw [hd] at hh
    obtain ⟨j, hn, -, hjo, -⟩ := hh.next_cons Source.holds_forecast
    have hu : t.next.2 = { t with
        cursor := j, segmentText := c :: t.segmentText, retained := t.retained.map (c :: ·) } := by
      rw [Scanner.next, hn]
    have hc : text[t.offset]? = some c := by
      rw [← List.head?_drop]
      exact congrArg List.head? hd
    have huo : t.next.2.offset = t.offset + 1 := hu ▸ hjo
    rw [hn] at hw
    refine ⟨hu ▸ hw, hu ▸ h.origin_eq, by omega, fun _ ↦ by omega, ?_⟩
    rw [huo, Span.slice_succ ho hc, hu, h.retained]
    split <;> simp

theorem Keeps.back (h : t.Keeps text retains origin) : t.back.2.Keeps text retains origin := by
  have hw := h.within.back
  cases hl : t.cursor.last with
  | nothing | pushedBack =>
    simpa only [Scanner.back, Cursor.back, hl] using h
  | endOfInput =>
    simp only [Cursor.back, hl] at hw
    simp only [Scanner.back, Cursor.back, hl]
    exact ⟨hw, h.origin_eq, h.origin_le, LastRead.noConfusion, h.retained⟩
  | character =>
    obtain ⟨n, c, hn, -, hc⟩ := h.within.behind hl
    have hlt := h.origin_lt hl
    have hr := h.retained
    have hn : t.offset = n + 1 := hn
    rw [hn] at hlt hr
    rw [Span.slice_succ (Nat.le_of_lt_succ hlt) hc] at hr
    simp only [Cursor.back, hl] at hw
    simp only [Scanner.back, Cursor.back, hl]
    have ho : t.cursor.offset - 1 = n := by
      simp only [offset] at hn
      omega
    refine ⟨hw, h.origin_eq, ?_, LastRead.noConfusion, ?_⟩
    · simp only [offset, ho]
      omega
    · simp only [offset, ho, hr]
      split <;> simp

theorem Keeps.peek (n : Nat) (h : t.Keeps text retains origin) :
    (t.peek n).2.Keeps text retains origin := by
  obtain ⟨j, hj, -, hjo, hjl, -⟩ := h.within.holds.peek Source.holds_forecast n
  have hw := h.within.peek Source.holds_forecast n
  have hu : (t.peek n).2 = { t with cursor := j } := by rw [Scanner.peek, hj]
  have ho : ({ t with cursor := j } : Scanner).offset = t.offset := hjo
  rw [hj] at hw
  rw [hu]
  exact ⟨hw, h.origin_eq, ho ▸ h.origin_le, fun hl ↦ ho ▸ h.origin_lt (hjl.symm.trans hl),
    ho ▸ h.retained⟩

theorem keeps_invariant (text : List Char) (retains : Bool) (origin : Nat) :
    Invariant (Keeps text retains origin) where
  next h := h.next
  back h := h.back
  peek n h := h.peek n
  frame h hc hr ho := by
    refine ⟨hc ▸ h.within, ho.trans h.origin_eq, ?_, ?_, ?_⟩
    · simpa only [offset, hc] using h.origin_le
    · simpa only [offset, hc] using h.origin_lt
    · simpa only [offset, hc, hr] using h.retained

def Transcribes (text : List Char) (retains : Bool) (origin : Nat) (t : Scanner) : Prop :=
  ∀ span : Span, t.rawText span =
    if retains ∧ origin ≤ span.start ∧ span.start ≤ span.stop ∧ span.stop ≤ t.offset then
      some (String.ofList (span.slice text))
    else none

theorem Keeps.transcribes (h : t.Keeps text retains origin) :
    t.Transcribes text retains origin := by
  intro span
  cases retains with
  | false => simp [rawText, h.retained]
  | true =>
    have hlen : (Span.slice text ⟨origin, t.offset⟩).length = t.offset - origin :=
      Span.length_slice h.within.offset_le
    have hle := h.origin_le
    simp only [rawText, h.retained, h.origin_eq, ↓reduceIte, Option.bind_some,
      Option.bind_eq_bind, List.length_reverse, List.reverse_reverse, hlen, true_and]
    by_cases hs : origin ≤ span.start ∧ span.start ≤ span.stop ∧ span.stop ≤ t.offset
    · have hs' : span.stop - origin ≤ t.offset - origin := by omega
      rw [if_pos hs, if_pos ⟨hs.1, hs.2.1, hs'⟩, Span.slice_slice hs.1 hs.2.2]
    · rw [if_neg hs, if_neg]
      omega

end Scanner

open Scanner

theorem Reader.keeps_parses {text : List Char} {retains : Bool} {origin : Nat} {r : Reader}
    (h : r.scanner.Keeps text retains origin) (calls : List (Policy × List Problem)) :
    (r.parses calls).2.scanner.Keeps text retains origin := by
  induction calls generalizing r with
  | nil => exact h
  | cons call calls ih => exact ih ((keeps_invariant text retains origin).parse call.1 call.2 h)

/-- A scanner that keeps the text shows just the parts of it between the offset where it started
and the one where it is, whatever was done with it and however this ended. So does a reader, after
any calls. One that does not keep the text shows nothing. What they leave stands in the same text,
so this holds of every scanner and reader that takes over from them. -/
theorem rawText_transcribes {source : Source} {text : List Char} (hs : source.Holds text) :
    (⟨[], 0, source⟩ : Remainder).StandsIn text ∧
    ∀ rest : Remainder, rest.StandsIn text →
      (∀ delimiters limits (ops : List Operation), (∀ d l, .handOff d l ∉ ops) →
        let t := ops.foldl perform (ofRemainder delimiters limits rest)
        t.Transcribes text limits.retainsText rest.offset ∧ t.remainder.StandsIn text) ∧
      ∀ options r, Reader.resume options rest = .ok (some r) → ∀ calls,
        let r' := (r.parses calls).2
        r'.scanner.Transcribes text options.retainsText rest.offset ∧
          r'.remainder.StandsIn text := by
  refine ⟨hs.standsIn, fun rest hrest ↦ ⟨?_, ?_⟩⟩
  · intro delimiters limits ops ho t
    have hk : t.Keeps text limits.retainsText rest.offset :=
      (keeps_invariant text limits.retainsText rest.offset).foldl_perform
        (fun d l _ hm _ ↦ absurd hm (ho d l)) (keeps_start hrest delimiters limits)
    exact ⟨hk.transcribes, hk.within.remainder⟩
  · intro options r hr calls r'
    have hk := (keeps_invariant text options.retainsText rest.offset).resume
      (keeps_start hrest _ options.toLimits) hr
    have hk' := Reader.keeps_parses hk calls
    exact ⟨hk'.transcribes, hk'.within.remainder⟩

/-- A scanner reads an interchange, with a pushback and a refused one, and leaves the next to a
reader, which cannot read it well. -/
theorem rawText_transcribes_handedOff :
    let text := "UNB+UNOC:3+A+B+240101:1200+1'UNZ+0+1'\nUNB+UNOC:3+C'UNZ+7+2'\n".toList
    let ops : List Operation := [.segment, .next, .lookahead 3, .back, .back, .segment]
    let options : Options := { retainsText := true }
    let t := ops.foldl perform (ofRemainder .edifact options.toLimits { source := .text text })
    let r : Reader :=
      { standard := .edifact
        scanner := ((ofRemainder { field := '*', terminator := '~' } options.toLimits
          t.remainder).skipBlank.2.peek Standard.quotedLength).2
        tables := {} }
    let r' := (r.parses [(.strict, [])]).2
    Reader.resume options t.remainder = .ok (some r) ∧
      t.rawText ⟨29, 37⟩ = some "UNZ+0+1'" ∧ t.rawText ⟨29, 38⟩ = none ∧
      r'.scanner.rawText ⟨38, 51⟩ = some "UNB+UNOC:3+C'" ∧ r'.scanner.rawText ⟨29, 37⟩ = none := by
  intro text ops options t r r'
  have ho : ∀ d l, .handOff d l ∉ ops := by simp [ops]
  have hr : Reader.resume options t.remainder = .ok (some r) := by decide +kernel
  have hs : (Source.text text).Holds text := rfl
  obtain ⟨hstart, hall⟩ := rawText_transcribes hs
  obtain ⟨ht, hrest⟩ := (hall _ hstart).1 .edifact options.toLimits ops ho
  obtain ⟨hr', -⟩ := (hall _ hrest).2 options r hr [(.strict, [])]
  have hto : t.offset = 37 := by decide +kernel
  have hro : (51 : Nat) ≤ r'.scanner.offset := by decide +kernel
  refine ⟨hr, ?_, ?_, ?_, ?_⟩
  · rw [show t.rawText ⟨29, 37⟩ = _ from ht ⟨29, 37⟩, hto]
    decide +kernel
  · rw [show t.rawText ⟨29, 38⟩ = _ from ht ⟨29, 38⟩, hto]
    decide +kernel
  · have hp : options.retainsText ∧ t.remainder.offset ≤ 38 ∧ 38 ≤ 51 ∧ 51 ≤ r'.scanner.offset :=
      ⟨rfl, by decide +kernel, by decide, hro⟩
    rw [show r'.scanner.rawText ⟨38, 51⟩ = _ from hr' ⟨38, 51⟩, if_pos hp]
    decide +kernel
  · rw [show r'.scanner.rawText ⟨29, 37⟩ = _ from hr' ⟨29, 37⟩, if_neg (by decide +kernel)]

end Edi
