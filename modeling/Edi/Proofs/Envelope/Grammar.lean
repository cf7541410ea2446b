import Edi.Proofs.Envelope.Language
import Edi.Proofs.Reader.Header
import Edi.Proofs.Reader.Accepted
import Edi.Proofs.Scanner.Segments

namespace Edi

variable {t u : Scanner} {l : Language String} {s : Segment}

def Scanner.tags (n : Nat) (t : Scanner) : List String := (t.segments.take n).map (·.tag)

/-- A reading of the segments of `t` that ends with a result at the scanner `t'` goes by the words
of a language. -/
structure GoesBy (l : Language String) (t : Scanner) (result : Except Error Closing)
    (t' : Scanner) : Prop where
  ok_iff : (∃ c, result = .ok c) ↔ ∃ n ≤ t.segments.length, t.tags n ∈ l
  /-- It stops just after the word. -/
  stops : ∀ n ≤ t.segments.length, t.tags n ∈ l → t' = t.after n
  /-- Else the first segment that no word goes on with is turned away. -/
  misplaced : (∀ n ≤ t.segments.length, t.tags n ∉ l) → ∀ n s, t.segments[n]? = some s →
    Begins l (t.tags n) → ¬Begins l (t.tags (n + 1)) →
    ∃ place, result = .error (.unexpectedSegment s.tag place s.span.start)
  /-- And if there is none, what ends the segments ends the reading. -/
  ended : (∀ n ≤ t.segments.length, t.tags n ∉ l) → Begins l (t.tags t.segments.length) →
    let last := (t.after t.segments.length).segment
    t' = last.2 ∧ ∃ e, result = .error e ∧
      (last.1 = .error e ∨
        last.1 = .ok none ∧ ∃ expected, e = .unexpectedEnd last.2.offset expected)

theorem Scanner.tags_succ (h : t.segment = (.ok (some s), u)) (n : Nat) :
    t.tags (n + 1) = s.tag :: u.tags n := by
  simp [tags, segments_of_segment h]

theorem Scanner.after_succ (h : t.segment = (.ok (some s), u)) (n : Nat) :
    t.after (n + 1) = u.after n := by
  simp [after, h]

theorem GoesBy.cons {l' : Language String} {result : Except Error Closing} {t' : Scanner}
    (h : t.segment = (.ok (some s), u)) (hn : [] ∉ l) (hl : ∀ w, s.tag :: w ∈ l ↔ w ∈ l')
    (hne : ∃ w, w ∈ l') (hg : GoesBy l' u result t') : GoesBy l t result t' := by
  have hlen : t.segments.length = u.segments.length + 1 := by
    simp [Scanner.segments_of_segment h]
  have hb (n : Nat) : Begins l (t.tags (n + 1)) ↔ Begins l' (u.tags n) := by
    simp only [Begins, Scanner.tags_succ h, List.cons_append, hl]
  have hm (n : Nat) : t.tags (n + 1) ∈ l ↔ u.tags n ∈ l' := by rw [Scanner.tags_succ h, hl]
  have hno (ha : ∀ n ≤ t.segments.length, t.tags n ∉ l) (n : Nat) (hle : n ≤ u.segments.length) :
      u.tags n ∉ l' := fun hw ↦ ha (n + 1) (by omega) ((hm n).2 hw)
  constructor
  · rw [hg.ok_iff]
    constructor
    · intro hm
      obtain ⟨n, hle, hw⟩ := hm
      exact ⟨n + 1, by omega, (hm n).2 hw⟩
    · intro hm
      obtain ⟨n, hle, hw⟩ := hm
      cases n with
      | zero => exact absurd hw hn
      | succ n => exact ⟨n, by omega, (hm n).1 hw⟩
  · intro n hle hw
    cases n with
    | zero => exact absurd hw hn
    | succ n => rw [Scanner.after_succ h, ← hg.stops n (by omega) ((hm n).1 hw)]
  · intro ha n s' hs hbn hbs
    cases n with
    | zero => exact absurd ((hb 0).2 hne) hbs
    | succ n =>
      refine hg.misplaced (hno ha) n s' ?_ ((hb n).1 hbn) fun hv ↦ hbs ((hb (n + 1)).2 hv)
      simpa [Scanner.segments_of_segment h] using hs
  · intro ha hbn
    rw [hlen] at hbn ⊢
    rw [Scanner.after_succ h]
    exact hg.ended (hno ha) ((hb _).1 hbn)

theorem GoesBy.finished (t : Scanner) (c : Closing) : GoesBy 1 t (.ok c) t := by
  constructor
  · exact ⟨fun _ ↦ ⟨0, Nat.zero_le _, rfl⟩, fun _ ↦ ⟨c, rfl⟩⟩
  · intro n hle hw
    have hz : n = 0 := by
      have hlen := congrArg List.length ((Language.mem_one _).1 hw)
      simp only [Scanner.tags, List.length_map, List.length_take, List.length_nil] at hlen
      omega
    rw [hz, Scanner.after]
  · exact fun ha ↦ absurd rfl (ha 0 (Nat.zero_le _))
  · exact fun ha ↦ absurd rfl (ha 0 (Nat.zero_le _))

theorem GoesBy.unread {e : Error} (hn : [] ∉ l) (hs : ∀ s, t.segment.1 ≠ .ok (some s))
    (he : t.segment.1 = .error e ∨
      t.segment.1 = .ok none ∧ ∃ expected, e = .unexpectedEnd t.segment.2.offset expected) :
    GoesBy l t (.error e) t.segment.2 := by
  have hnil := Scanner.segments_of_ne hs
  have ha (n : Nat) : t.tags n ∉ l := by simpa [Scanner.tags, hnil] using hn
  constructor
  · exact ⟨fun ⟨_, h⟩ ↦ by simp at h, fun ⟨n, _, hw⟩ ↦ absurd hw (ha n)⟩
  · exact fun n _ hw ↦ absurd hw (ha n)
  · intro _ n s hs
    simp [hnil] at hs
  · intro _ _
    rw [hnil]
    exact ⟨rfl, e, rfl, he⟩

theorem GoesBy.turnedAway (h : t.segment = (.ok (some s), u)) (hn : [] ∉ l)
    (hl : ∀ w, s.tag :: w ∉ l) (place : String) : GoesBy l t (.error (s.outOfPlace place)) u := by
  have ha (n : Nat) : t.tags n ∉ l := by
    cases n with
    | zero => exact hn
    | succ n => rw [Scanner.tags_succ h]; exact hl _
  have hb (n : Nat) : ¬Begins l (t.tags (n + 1)) := by
    intro hm
    obtain ⟨v, hv⟩ := hm
    rw [Scanner.tags_succ h] at hv
    exact hl _ hv
  constructor
  · exact ⟨fun ⟨_, h⟩ ↦ by simp at h, fun ⟨n, _, hw⟩ ↦ absurd hw (ha n)⟩
  · exact fun n _ hw ↦ absurd hw (ha n)
  · intro _ n s' hs hbn _
    cases n with
    | zero =>
      have he : s = s' := by simpa [Scanner.segments_of_segment h] using hs
      exact ⟨place, he ▸ rfl⟩
    | succ n => exact absurd hbn (hb n)
  · intro _ hbl
    rw [Scanner.segments_of_segment h, List.length_cons] at hbl
    exact absurd hbl (hb _)

namespace Reader

open Envelope

theorem run_lenient_goesBy (earlier : List Problem) (tr : Transition) (r : Reader)
    (hn : tr.next.Settled) :
    GoesBy (tr.next.standing.rest tr.next.standard) r.scanner
      (r.run .lenient earlier tr).1.result (r.run .lenient earlier tr).2.scanner := by
  have hrun := r.run_lenient earlier tr
  generalize r.scanner = t, (r.run .lenient earlier tr).1 = reading,
    (r.run .lenient earlier tr).2.scanner = t' at hrun ⊢
  induction hrun with
  | finished hd =>
    rw [standing_eq_finished hd]
    exact .finished _ _
  | failed hd hs =>
    have hg := GoesBy.unread (nil_notMem_rest hd) (by simp [hs]) (.inl (congrArg Prod.fst hs))
    rwa [hs] at hg
  | @ended tr _ _ hd hs =>
    have hg := GoesBy.unread (nil_notMem_rest hd) (by simp [hs])
      (.inr ⟨congrArg Prod.fst hs, tr.next.missingTrailer, rfl⟩)
    rwa [hs] at hg
  | turnedAway hd hs ht =>
    obtain ⟨place, rfl⟩ := step_eq_error (hn.pending hd) ht
    exact .turnedAway hs (nil_notMem_rest hd) (hn.cons_notMem_rest_of_step hd ht) place
  | step hd hs ht _ ih =>
    have hp := step_eq_ok ht
    have hnext := hp.settled hn hd
    have hg := ih hnext
    rw [hp.standard] at hg
    have hne := Standing.rest_nonempty hnext.standing_fits
    rw [hp.standard] at hne
    exact .cons hs (nil_notMem_rest hd) (hn.cons_mem_rest_of_step hd ht) hne hg

/-- The order of segments, exactly: an interchange whose header was read ends well where the tags
after it make up a word of the language of its standard, and nowhere else. -/
theorem parse_goesBy_envelopeLanguage {r r₀ : Reader} {header : Segment}
    (hr : r.envelope = none) (hh : r.readHeader = (.ok header, r₀)) (earlier : List Problem) :
    GoesBy r.standard.envelopeLanguage r₀.scanner (r.parse .lenient earlier).1.result
      (r.parse .lenient earlier).2.scanner := by
  have hg : GoesBy r₀.standard.envelopeLanguage r₀.scanner _ _ :=
    run_lenient_goesBy earlier (Envelope.start r₀.standard header) r₀ (start_settled _ _)
  rw [← standard_of_readHeader hh]
  simpa only [parse, hr, hh] using hg

theorem parse_goesBy_envelopeLanguage_regrouped :
    let r : Reader :=
      { standard := .tradacoms
        scanner := .ofRemainder { field := '*', terminator := '~' } {}
          { source := .text "STX'BAT'EOB'MHD'A'MTR'BAT'".toList }
        tables := {} }
    let r₀ := r.readHeader.2
    r.envelope = none ∧ r.readHeader = (.ok ⟨"STX", [], ⟨0, 4⟩⟩, r₀) ∧
      r₀.scanner.tags 6 = ["BAT", "EOB", "MHD", "A", "MTR", "BAT"] ∧
      GoesBy r.standard.envelopeLanguage r₀.scanner (r.parse .lenient []).1.result
        (r.parse .lenient []).2.scanner := by
  intro r r₀
  have hh : r.readHeader = (.ok ⟨"STX", [], ⟨0, 4⟩⟩, r₀) := Prod.ext (by decide +kernel) rfl
  exact ⟨rfl, hh, by decide +kernel, parse_goesBy_envelopeLanguage rfl hh []⟩

end Reader

end Edi
