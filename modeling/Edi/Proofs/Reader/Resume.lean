import Edi.Reader

namespace Edi.Reader

variable {options : Options} {rest : Remainder} {r : Reader}

/-- A reader that is found stands before the first character that is not blank, and has read
nothing yet. -/
theorem resume_eq_some (h : resume options rest = .ok (some r)) : ∃ t preview,
    (Scanner.ofRemainder { field := '*', terminator := '~' } options.toLimits rest).skipBlank =
      (.ok true, t) ∧
    t.peek Standard.quotedLength = (.ok preview, r.scanner) ∧
    Standard.detect preview = .ok (some r.standard) ∧
    r = { standard := r.standard, scanner := r.scanner, tables := options.tables } := by
  simp only [resume] at h
  split at h
  · simp at h
  · simp at h
  · next t ht =>
    split at h
    · simp at h
    · next preview u hu =>
      cases hd : Standard.detect preview with
      | error e => simp [hd, Except.map] at h
      | ok o =>
        rw [hd] at h
        obtain ⟨standard, rfl, rfl⟩ := Option.map_eq_some_iff.1 (Except.ok.inj h)
        exact ⟨t, preview, ht, hu, hd, rfl⟩

theorem resume_envelope (h : resume options rest = .ok (some r)) : r.envelope = none := by
  obtain ⟨_, _, _, _, _, hr⟩ := resume_eq_some h
  exact hr ▸ rfl

theorem resume_recovered (h : resume options rest = .ok (some r)) : r.recovered = [] := by
  obtain ⟨_, _, _, _, _, hr⟩ := resume_eq_some h
  exact hr ▸ rfl

end Edi.Reader
