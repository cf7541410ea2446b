import Edi.Envelope.Preamble
import Edi.Envelope.Role
import Edi.Envelope.State
import Edi.Proofs.Scanner.Frame

namespace Edi

inductive Standard.AnnouncedBy : Standard → List Char → Prop
  | x12 (cs : List Char) : AnnouncedBy .x12 ('I' :: 'S' :: 'A' :: cs)
  | advised (cs : List Char) : AnnouncedBy .edifact ('U' :: 'N' :: 'A' :: cs)
  | edifact (cs : List Char) : AnnouncedBy .edifact ('U' :: 'N' :: 'B' :: cs)
  | tradacoms (cs : List Char) : AnnouncedBy .tradacoms ('S' :: 'T' :: 'X' :: cs)

variable {standard : Standard} {cs : List Char} {trims : Bool}

theorem Standard.detect_eq_ok_iff : detect cs = .ok (some standard) ↔ standard.AnnouncedBy cs := by
  constructor
  · intro h
    simp only [detect] at h
    split at h
    all_goals simp only [reduceCtorEq, Except.ok.injEq, Option.some.injEq] at h
    all_goals subst h
    · exact .x12 _
    · exact .advised _
    · exact .edifact _
    · exact .tradacoms _
  · intro h
    cases h <;> rfl

theorem Standard.announcedBy_take_iff (standard : Standard) (cs : List Char) :
    standard.AnnouncedBy (cs.take quotedLength) ↔ standard.AnnouncedBy cs := by
  match cs with
  | [] | [_] | [_, _] => exact Iff.rfl
  | a :: b :: c :: cs =>
    constructor
    · intro h
      generalize ht : (a :: b :: c :: cs).take quotedLength = t at h
      cases h <;> simp only [quotedLength, List.take_succ_cons, List.cons.injEq] at ht <;>
        obtain ⟨rfl, rfl, rfl, -⟩ := ht <;> constructor
    · intro h
      cases h <;> constructor

theorem Standard.detect_eq_error {e : Error} (h : detect cs = .error e) :
    ∃ found, e = .unsupportedDialect found := by
  simp only [detect] at h
  split at h
  all_goals simp only [reduceCtorEq, Except.error.injEq] at h
  exact ⟨_, h.symm⟩

theorem Standard.announcedBy_or_error (c : Char) (cs : List Char) :
    (∃ standard : Standard, standard.AnnouncedBy (c :: cs)) ∨
    ∃ found, detect ((c :: cs).take quotedLength) = .error (.unsupportedDialect found) := by
  cases hd : detect ((c :: cs).take quotedLength) with
  | error e =>
    obtain ⟨found, rfl⟩ := detect_eq_error hd
    exact .inr ⟨found, rfl⟩
  | ok o =>
    cases o with
    | none =>
      simp only [detect] at hd
      split at hd
      · next h => simp [quotedLength] at h
      all_goals simp at hd
    | some standard =>
      exact .inl ⟨standard, (announcedBy_take_iff _ _).1 (detect_eq_ok_iff.1 hd)⟩

theorem Standard.AnnouncedBy.append (h : standard.AnnouncedBy cs) (more : List Char) :
    standard.AnnouncedBy (cs ++ more) := by
  cases h <;> constructor

theorem Standard.AnnouncedBy.three_le (h : standard.AnnouncedBy cs) : 3 ≤ cs.length := by
  cases h <;> simp

theorem Standard.AnnouncedBy.eq_x12 (h : standard.AnnouncedBy ('I' :: 'S' :: 'A' :: cs)) :
    standard = .x12 := by
  cases h
  rfl

namespace Preamble

/-- The preamble without what follows the terminator, on which no reading depends. -/
def bare : Preamble → Preamble
  | decoded d length header => decoded d.bare length header
  | advised d length => advised d.bare length
  | implied d => implied d.bare

@[simp] theorem bare_delimiters (p : Preamble) : p.bare.delimiters = p.delimiters.bare := by
  cases p <;> rfl

def isAdvised : Preamble → Bool
  | advised _ _ => true
  | _ => false

@[simp] theorem bare_isAdvised (p : Preamble) : p.bare.isAdvised = p.isAdvised := by
  cases p <;> rfl

theorem values?_append {mark : Char} {n : Nat} {values : List (List Char)} {rest : List Char}
    (h : values? mark n cs = some (values, rest)) (more : List Char) :
    values? mark n (cs ++ more) = some (values, rest ++ more) := by
  induction n generalizing cs values rest with
  | zero =>
    obtain ⟨rfl, rfl⟩ := Prod.mk.inj (Option.some.inj h)
    rfl
  | succ n ih =>
    simp only [values?] at h ⊢
    generalize hp : (fun c ↦ decide (c ≠ mark)) = p at h ⊢
    cases hd : cs.dropWhile p with
    | nil => simp only [hd, reduceCtorEq] at h
    | cons c tail =>
      have hl : (cs.takeWhile p).length ≠ cs.length := by
        have ha := congrArg List.length (List.takeWhile_append_dropWhile (p := p) (l := cs))
        simp only [hd, List.length_append, List.length_cons] at ha
        omega
      simp only [hd] at h
      obtain ⟨⟨vs, r⟩, hv, he⟩ := Option.map_eq_some_iff.1 h
      obtain ⟨rfl, rfl⟩ := Prod.mk.inj he
      simp only [List.dropWhile_append, hd, List.isEmpty_cons, Bool.false_eq_true, ↓reduceIte,
        List.takeWhile_append, hl, List.cons_append, ih hv, Option.map_some]

theorem x12Repetition?_withTerminatorSuffix (d : Delimiters) (suffix : String)
    (values : List (List Char)) :
    x12Repetition? trims (d.withTerminatorSuffix suffix) values = x12Repetition? trims d values :=
  rfl

theorem ofX12_append (cs more : List Char) (hl : ('I' :: 'S' :: 'A' :: cs).length < x12Length) :
    (∃ offset expected, ofX12 trims ('I' :: 'S' :: 'A' :: cs) =
      .error (.unexpectedEnd offset expected)) ∨
    (ofX12 trims ('I' :: 'S' :: 'A' :: cs ++ more)).map bare =
      (ofX12 trims ('I' :: 'S' :: 'A' :: cs)).map bare := by
  cases cs with
  | nil => exact .inl ⟨_, _, rfl⟩
  | cons field body =>
    simp only [ofX12, List.cons_append]
    split
    · exact .inr rfl
    · cases hv : values? field 15 body with
      | none => exact .inl ⟨_, _, rfl⟩
      | some vr =>
        obtain ⟨values, rest⟩ := vr
        match rest with
        | [] | [_] => exact .inl ⟨_, _, rfl⟩
        | sub :: terminator :: after =>
          right
          simp only [values?_append hv, List.cons_append]
          split
          · rfl
          · simp only [x12Repetition?_withTerminatorSuffix]
            rfl

theorem ofEdifact_append (cs more : List Char) (h : Standard.edifact.AnnouncedBy cs)
    (hl : cs.length < 9) :
    (∃ offset expected, ofEdifact cs = .error (.unexpectedEnd offset expected)) ∨
      ofEdifact (cs ++ more) = ofEdifact cs := by
  cases h with
  | edifact cs => exact .inr rfl
  | advised cs =>
    left
    match cs with
    | [] | [_] | [_, _] | [_, _, _] | [_, _, _, _] | [_, _, _, _, _] => exact ⟨_, _, rfl⟩
    | _ :: _ :: _ :: _ :: _ :: _ :: cs =>
      simp only [List.length_cons] at hl
      omega

end Preamble

/-- Previews of the same beginning show the same preamble, or that of the shorter text shows that
this ends too soon for one. -/
theorem Standard.AnnouncedBy.preamble (h : standard.AnnouncedBy cs) (more : List Char)
    (trims : Bool) :
    let p := standard.preamble trims (cs.take standard.previewLength)
    let p' := standard.preamble trims ((cs ++ more).take standard.previewLength)
    (∃ offset expected, p = .error (.unexpectedEnd offset expected)) ∨
      (∃ e, p = .error e ∧ p' = .error e) ∨
      ∃ q q', p = .ok q ∧ p' = .ok q' ∧ q'.bare = q.bare := by
  intro p p'
  have hp : (∃ offset expected, p = .error (.unexpectedEnd offset expected)) ∨
      p'.map Preamble.bare = p.map Preamble.bare := by
    by_cases hl : standard.previewLength ≤ cs.length
    · simp only [p', p, List.take_append_of_le_length hl]
      exact .inr trivial
    · rw [Nat.not_le] at hl
      simp only [p', p, List.take_append, List.take_of_length_le (Nat.le_of_lt hl)]
      cases standard with
      | x12 =>
        cases h
        exact Preamble.ofX12_append _ _ hl
      | edifact =>
        rcases Preamble.ofEdifact_append cs (more.take (9 - cs.length)) h hl with hp | hp
        · exact .inl hp
        · exact .inr (congrArg _ hp)
      | tradacoms =>
        have := h.three_le
        simp only [previewLength] at hl
        omega
  rcases hp with hp | hp
  · exact .inl hp
  · rcases p with e | q <;> rcases p' with e' | q' <;>
      simp only [Except.map, Except.ok.injEq, Except.error.injEq, reduceCtorEq] at hp
    · exact .inr (.inl ⟨e, rfl, congrArg _ hp⟩)
    · exact .inr (.inr ⟨q, q', rfl, rfl, hp⟩)

namespace Preamble

def endings : List String :=
  ["ISA field delimiter", "end of ISA segment", "ISA segment terminator",
    "UNA service characters"]

def flaws : List String :=
  ["ISA field delimiter is a letter, digit or blank", "ISA segment has fewer than 16 elements",
    "ISA delimiters are not distinct"]

/-- The preview of an X12 header stops after the last of its field marks, before it shows both of
the characters that come then. -/
def CutShort (preview : List Char) : Prop :=
  ∃ field body values rest, preview = 'I' :: 'S' :: 'A' :: field :: body ∧
    (Text.isAlphanumeric field || Text.isWhite field) = false ∧
    values? field 15 body = some (values, rest) ∧ rest.length < 2

/-- Why a preview does not show how an interchange begins. -/
inductive Fault (standard : Standard) (preview : List Char) : Error → Prop
  | short {expected : String} (he : expected ∈ endings)
      (hl : preview.length < standard.previewLength) :
      Fault standard preview (.unexpectedEnd preview.length expected)
  | cutShort (hs : standard = .x12) (hc : CutShort preview) :
      Fault standard preview (.unexpectedEnd preview.length "ISA segment terminator")
  | flawed (offset : Nat) {message : String} (hm : message ∈ flaws) :
      Fault standard preview (.malformedSegment offset message)
  | foreign (found : String) :
      Fault standard preview (.missingHeader standard.headerTag found)

variable {preview : List Char} {e : Error}

theorem CutShort.ofX12 (trims : Bool) (h : CutShort preview) : ofX12 trims preview =
    .error (.unexpectedEnd preview.length "ISA segment terminator") := by
  obtain ⟨field, body, values, rest, rfl, hf, hv, hr⟩ := h
  simp only [Preamble.ofX12, hf, Bool.false_eq_true, ↓reduceIte, hv]
  match rest with
  | [] | [_] => rfl
  | _ :: _ :: _ =>
    simp only [List.length_cons] at hr
    omega

theorem ofX12_eq_error (h : ofX12 trims preview = .error e) : Fault .x12 preview e := by
  simp only [ofX12] at h
  split at h
  · obtain rfl := Except.error.inj h
    exact .short (by decide) (by decide)
  · next field body =>
    split at h
    · obtain rfl := Except.error.inj h
      exact .flawed 3 (by decide)
    · next hf =>
      split at h
      · split at h
        · next hl =>
          obtain rfl := Except.error.inj h
          exact .short (by decide) hl
        · obtain rfl := Except.error.inj h
          exact .flawed 0 (by decide)
      · split at h
        · obtain rfl := Except.error.inj h
          exact .flawed _ (by decide)
        · simp at h
      · next vr hne hv =>
        obtain rfl := Except.error.inj h
        obtain ⟨values, rest⟩ := vr
        refine .cutShort rfl ⟨field, body, values, rest, rfl, by simpa using hf, hv, ?_⟩
        match rest with
        | [] | [_] => simp
        | sub :: terminator :: after => exact absurd rfl (hne values sub terminator after)
  · obtain rfl := Except.error.inj h
    exact .foreign _

theorem ofEdifact_eq_error (h : ofEdifact preview = .error e) : Fault .edifact preview e := by
  simp only [ofEdifact] at h
  split at h
  · simp at h
  · simp at h
  · next cs hne =>
    obtain rfl := Except.error.inj h
    refine .short (by decide) ?_
    match cs with
    | [] | [_] | [_, _] | [_, _, _] | [_, _, _, _] | [_, _, _, _, _] =>
      simp [Standard.previewLength]
    | a :: b :: c :: d :: e :: f :: cs => exact absurd rfl (hne a b c d e f cs)
  · obtain rfl := Except.error.inj h
    exact .foreign _

theorem ofTradacoms_eq_error (h : ofTradacoms preview = .error e) :
    Fault .tradacoms preview e := by
  simp only [ofTradacoms] at h
  split at h
  · simp at h
  · obtain rfl := Except.error.inj h
    exact .foreign _

end Preamble

theorem Standard.preamble_eq_error {preview : List Char} {e : Error}
    (h : standard.preamble trims preview = .error e) : Preamble.Fault standard preview e := by
  cases standard with
  | x12 => exact Preamble.ofX12_eq_error h
  | edifact => exact Preamble.ofEdifact_eq_error h
  | tradacoms => exact Preamble.ofTradacoms_eq_error h

/-- The error is found in a preview of the header. Its offset counts from the first character of the
header and not from the start of the stream. -/
def Error.countsFromHeader : Error → Bool
  | unexpectedEnd _ expected => Preamble.endings.contains expected
  | malformedSegment _ message => Preamble.flaws.contains message
  | _ => false

theorem Standard.headerTag_notMem (standard : Standard) :
    standard.headerTag ∉ Preamble.endings := by
  cases standard <;> decide

theorem Envelope.missingTrailer_notMem (e : Envelope) : e.missingTrailer ∉ Preamble.endings := by
  simp only [missingTrailer]
  repeat' split
  all_goals decide

end Edi
