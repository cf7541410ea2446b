import Edi.Proofs.Reader.Agree
import Edi.Proofs.Stream

namespace Edi

variable {distance stop : Nat} {policy : Policy} {earlier earlier' : List Problem}

namespace Reading

theorem relocate_behind (emissions : List Emission) (offers : List Offer)
    (closings : List Closing) (x : Reading (List Closing)) :
    (x.behind emissions offers closings).relocate distance =
      (x.relocate distance).behind emissions (offers.map (·.shift distance)) closings := by
  obtain ⟨es, os, e | cs⟩ := x <;> simp [behind, after, relocate, Error.relocateOr, Except.map]

theorem relocate_framed {α : Type} (x : Reading α) :
    x.framed.relocate distance = (x.relocate distance).framed := by
  obtain ⟨es, os, e | a⟩ := x <;> rfl

end Reading

variable (options : Options) (capacity : Nat) (retains : Bool)

theorem Reader.parseAll_relocate (other : Options) {r s r' s' : Reader} {one : Reading Closing}
    (hr : r.parse policy earlier = (one, r'))
    (hs : s.parse policy earlier' = (one.relocate distance, s'))
    (hrest : ∀ c, one.result = .ok c →
      s'.remainder.parseAll policy other
          (earlier' ++ (one.offers.map (·.problem)).map (·.shift distance)) =
        (r'.remainder.parseAll policy options
          (earlier ++ one.offers.map (·.problem))).relocate distance) :
    s.parseAll policy other earlier' = (r.parseAll policy options earlier).relocate distance := by
  cases hres : one.result with
  | error e =>
    have hre : (r.parse policy earlier).1.result = .error e := by rw [hr, hres]
    have hse : (s.parse policy earlier').1.result = .error (e.relocate distance) := by
      rw [hs, Reading.relocate, hres]
      rfl
    rw [parseAll_of_error hre, parseAll_of_error hse, hr, hs]
    rfl
  | ok c =>
    have hrc : (r.parse policy earlier).1.result = .ok c := by rw [hr, hres]
    have hsc : (s.parse policy earlier').1.result = .ok c := by
      rw [hs, Reading.relocate, hres]
      rfl
    have hoffers : (one.relocate distance).offers.map (·.problem) =
        (one.offers.map (·.problem)).map (·.shift distance) := by
      simp [Reading.relocate]
    rw [parseAll_eq_behind hrc, parseAll_eq_behind hsc, hr, hs]
    dsimp only
    rw [Reading.relocate_behind, hoffers, hrest c hres]
    rfl

theorem Remainder.Follows.parseAll_relocate {a b : Remainder}
    (hp : policy.Relocates distance earlier earlier') (h : a.Follows distance [] stop b) :
    b.parseAll policy { options with bufferCapacity := capacity, retainsText := retains } earlier' =
      (a.parseAll policy options earlier).relocate distance := by
  -- The induction is on what there is still to read, of which every interchange takes some.
  induction hb : a.source.bound + a.leftover.length using Nat.strongRecOn
    generalizing a b earlier earlier' stop with
  | ind n ih =>
    rcases h.resume_agree options capacity retains with
      ⟨found, ha, hb⟩ | ⟨ha, hb⟩ | ⟨r, s, ha, hb', hrs⟩
    · simp only [Remainder.parseAll, ha, hb]
      rfl
    · simp only [Remainder.parseAll, ha, hb]
      rfl
    · obtain ⟨one, r', s', hr, hs, h'⟩ :=
        hrs.parse hp (Reader.resume_envelope ha) (Reader.resume_readable ha)
      simp only [Remainder.parseAll, ha, hb']
      refine Reader.parseAll_relocate options _ hr hs fun c hc ↦ ?_
      have hrc : (r.parse policy earlier).1.result = .ok c := by rw [hr, hc]
      have hlt : r'.scanner.bound < r.scanner.bound := by
        simpa only [hr] using Reader.parse_lt hrc
      have hlt : r'.remainder.source.bound + r'.remainder.leftover.length < n :=
        hb ▸ Nat.lt_of_lt_of_le hlt (Reader.resume_bound ha)
      obtain ⟨stop', hf⟩ := h'.remainder
      exact ih _ hlt (hp.append (one.offers.map (·.problem))) hf rfl

/-- The same stream after some blanks is read alike. -/
theorem parseStream_relocate {source source' : Source}
    (hp : policy.Relocates distance [] [])
    (h : Remainder.Follows distance [] stop { source := source } { source := source' }) :
    parseStream policy { options with bufferCapacity := capacity, retainsText := retains } source' =
      (parseStream policy options source).relocate distance := by
  rcases h.resume_agree options capacity retains with
    ⟨found, ha, hb⟩ | ⟨ha, hb⟩ | ⟨r, s, ha, hb, -⟩
  · simp only [parseStream, Reader.open?, ha, hb]
    rfl
  · rw [parseStream_of_open ha, parseStream_of_open hb, Reading.relocate_framed,
      h.parseAll_relocate options capacity retains hp]
  · rw [parseStream_of_open ha, parseStream_of_open hb, Reading.relocate_framed,
      h.parseAll_relocate options capacity retains hp]

/-- Blanks before a text change nothing of what is read, except that all offsets count them. Only
the errors that are found in a preview of a header count from that header, whatever comes before it.
-/
theorem parseStream_blanks_append (verdict : Bool) (options : Options) {blanks : List Char}
    (hb : Text.IsBlank blanks) (text : List Char) :
    parseStream (fun _ _ ↦ verdict) options (.text (blanks ++ text)) =
      (parseStream (fun _ _ ↦ verdict) options (.text text)).relocate blanks.length := by
  have hp : Policy.Relocates (fun _ _ ↦ verdict) blanks.length [] [] := fun _ _ ↦ rfl
  have hf : Remainder.Follows blanks.length [] text.length { source := .text text }
      { source := .text (blanks ++ text) } := by
    refine ⟨blanks, text, hb, ⟨text, rfl, rfl⟩, ⟨blanks ++ text, rfl, ?_⟩, ?_, ?_⟩
    · simp
    · simp
    · simp
  exact parseStream_relocate options options.bufferCapacity options.retainsText hp hf

/-- A wrong count, and then a header that breaks off. -/
theorem parseStream_blanks_append_wrong :
    let blanks := [' ', '\uFEFF', '\n']
    let text := "UNB+UNOC:3+A+B+240101:1200+1'UNZ+9+1'\nUNB+".toList
    let x := parseStream .lenient {} (.text text)
    let y := parseStream .lenient {} (.text (blanks ++ text))
    Text.IsBlank blanks ∧ x.offers.map (·.problem.offset) = [29] ∧
      x.result = .error (.unexpectedEnd 42 "segment terminator") ∧
      y.emissions = x.emissions ∧ y.offers.map (·.problem.offset) = [32] ∧
      y.result = .error (.unexpectedEnd 45 "segment terminator") := by
  intro blanks text x y
  have hb : Text.IsBlank blanks := by simp [Text.IsBlank, Text.isBlankChar, Text.isWhite, blanks]
  have ho : x.offers.map (·.problem.offset) = [29] := by decide +kernel
  have hx : x.result = .error (.unexpectedEnd 42 "segment terminator") := by decide +kernel
  have hy : y = x.relocate blanks.length := parseStream_blanks_append true {} hb text
  refine ⟨hb, ho, hx, by rw [hy]; rfl, ?_, ?_⟩
  · rw [hy]
    decide +kernel
  · rw [hy, Reading.relocate, hx]
    rfl

/-- The header breaks off before its last element. Behind a blank it does so at the same offset. -/
theorem parseStream_blanks_append_cut :
    let x := parseStream .lenient {} (.text "ISA*00*".toList)
    let y := parseStream .lenient {} (.text ([' '] ++ "ISA*00*".toList))
    Text.IsBlank [' '] ∧ x.result = .error (.unexpectedEnd 7 "end of ISA segment") ∧
      y.result ≠ Error.shiftOr 1 id x.result := by
  refine ⟨by simp [Text.IsBlank, Text.isBlankChar, Text.isWhite], ?_, ?_⟩ <;> decide +kernel

end Edi
