import Edi.Proofs.Reader.Fault
import Edi.Proofs.Stream

namespace Edi

variable {policy : Policy} {options : Options} {earlier : List Problem}

namespace Reader

variable {r r' : Reader} {rest : Remainder}

theorem resume_ne_internal (options : Options) (rest : Remainder) (message : String) :
    resume options rest ≠ .error (.internal message) := by
  intro h
  rcases resume_eq_error h with ⟨text, he⟩ | ⟨found, he⟩
  · simp at he
  · simp at he

theorem Puzzled.not_internal {message : String} : ¬r.Puzzled (.internal message) r' := by
  rintro ⟨preview, t, -, -, hf, -⟩
  cases hf

theorem parse_ne_internal (policy : Policy) (earlier : List Problem) (message : String)
    (h : resume options rest = .ok (some r)) :
    (r.parse policy earlier).1.result ≠ .error (.internal message) := by
  intro he
  rcases parse_fault (resume_envelope h) (resume_readable h) he with hp | hf
  · exact hp.not_internal
  · exact hf.not_internal

theorem parseAll_ne_internal (policy : Policy) (earlier : List Problem) (message : String)
    (h : resume options rest = .ok (some r)) :
    (r.parseAll policy options earlier).result ≠ .error (.internal message) := by
  fun_induction parseAll policy options earlier r generalizing rest with
  | case1 earlier r one e he =>
    intro hm
    obtain rfl := Except.error.inj hm
    exact parse_ne_internal policy earlier message h he
  | case2 earlier r one c hc e hr =>
    intro hm
    obtain rfl := Except.error.inj hm
    exact resume_ne_internal options _ message hr
  | case3 => simp
  | case4 earlier r one c hc next hr others _ =>
    rename_i ih
    intro hm
    have hn : others.result ≠ .error (.internal message) := ih hr
    cases ho : others.result with
    | error e =>
      simp only [ho, Except.map, Except.error.injEq] at hm
      exact hn (hm ▸ ho)
    | ok cs => simp [ho, Except.map] at hm

end Reader

/-- The errors that show that a reader was not used as it must be never come up: while a stream is
read, the end of input is not read twice, nothing is pushed back that cannot be, no trailer of an
interchange is met without the header that it ends, and no interchange is parsed again. -/
theorem internal_unreachable (policy : Policy) (options : Options) (message : String) :
    (∀ source, (parseStream policy options source).result ≠ .error (.internal message)) ∧
    (∀ source, Reader.open? options source ≠ .error (.internal message)) ∧
    ∀ rest, Reader.resume options rest ≠ .error (.internal message) ∧
      ∀ r, Reader.resume options rest = .ok (some r) → ∀ earlier,
        (r.parse policy earlier).1.result ≠ .error (.internal message) := by
  refine ⟨?_, ?_, ?_⟩
  · intro source
    cases ho : Reader.open? options source with
    | error e =>
      simp only [parseStream, ho]
      intro hm
      obtain rfl := Except.error.inj hm
      exact Reader.resume_ne_internal options _ message ho
    | ok o =>
      cases o with
      | none => simp [parseStream, ho]
      | some r =>
        simp only [parseStream, ho, Reading.framed_result]
        exact Reader.parseAll_ne_internal policy [] message ho
  · intro source
    exact Reader.resume_ne_internal options _ message
  · intro rest
    refine ⟨Reader.resume_ne_internal options rest message, ?_⟩
    intro r hr earlier
    exact Reader.parse_ne_internal policy earlier message hr

/-- The connection breaks in the middle of the header. -/
theorem internal_unreachable_broken :
    let ds : List Delivery := [.bytes "UNB+UNOC:3+A+B+240101".toUTF8.data.toList,
      .failure "connection reset", .bytes ":1200+1'UNZ+0+1'".toUTF8.data.toList]
    let rest : Remainder := { source := .bytes (.ofDeliveries 4 none ds) }
    let r : Reader :=
      { standard := .edifact
        scanner := ((Scanner.ofRemainder { field := '*', terminator := '~' } {}
          rest).skipBlank.2.peek Standard.quotedLength).2
        tables := {} }
    Reader.resume {} rest = .ok (some r) ∧
      (r.parse .strict []).1.result = .error (.io "connection reset") ∧
      ∀ message, (r.parse .strict []).1.result ≠ .error (.internal message) := by
  intro ds rest r
  have hr : Reader.resume {} rest = .ok (some r) := by decide +kernel
  refine ⟨hr, by decide +kernel, ?_⟩
  intro message
  exact ((internal_unreachable .strict {} message).2.2 rest).2 r hr []

end Edi
