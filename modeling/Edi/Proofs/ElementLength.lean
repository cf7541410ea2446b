import Edi.Proofs.Segment.Counted
import Edi.Proofs.Trimming

namespace Edi

namespace Scanner

variable {t u v : Scanner} {text : List Char} {s : Segment}

structure SamePlace (text : List Char) (t v : Scanner) : Prop where
  delimiters : v.delimiters = t.delimiters
  offset : v.offset = t.offset
  holds : t.cursor.Holds (text.drop t.offset)
  holds' : v.cursor.Holds (text.drop t.offset)
  last_ne : t.cursor.last ≠ .endOfInput
  last_ne' : v.cursor.last ≠ .endOfInput

theorem segment_untrimmed_limited (hp : t.SamePlace text v) (ht : t.trims = false)
    (hv : v.trims = false) (h : t.segment = (.ok (some s), u)) :
    (∀ f ∈ s.fields, (f.dataStops t.delimiters text).length = f.value.length) ∧
      match overrun? v.maxElementLength (s.fields.map (·.dataStops t.delimiters text)) with
      | none => ∃ w, v.segment = (.ok (some s), w) ∧ w.offset = u.offset
      | some e => v.segment.1 = .error (.elementTooLong v.maxElementLength e) := by
  obtain ⟨hd, ho, hth, hvh, htl, hvl⟩ := hp
  rcases Text.isBlank_or_exists (text.drop t.offset) with hb | ⟨bs, b, rest, hr, hb, hc⟩
  · obtain ⟨w, hw, -⟩ := skipBlank_of_isBlank hb hth htl
    simp [segment, hw] at h
  · rw [hr] at hth hvh
    obtain ⟨t', hth', htd, hto, hts⟩ := segment_of_recognize hb hc hth htl
    obtain ⟨v', hvh', hvd, hvo, hvs⟩ := segment_of_recognize hb hc hvh hvl
    rcases hrec : t'.recognize _ _ with ⟨r, u'⟩
    obtain ⟨hr₁, hu⟩ := hts _ hrec
    obtain rfl : r = .ok s := by
      rcases r with e | s'
      all_goals simp_all [Except.map]
    obtain ⟨cs, c, ha, hreads, -⟩ := recognize_answers
      (Segment.recognizer_feed_ne_leave _ _ _ _) (Segment.recognizer_finish_ne_ok _ _ _ _) hrec
    obtain ⟨rest', hrest, -⟩ := hreads.holds hth'
    rw [hrest] at hr hvh'
    have htext : text.drop (t.offset + bs.length) = cs ++ c :: rest' := by
      rw [← List.drop_drop, hr, List.drop_left, List.append_assoc]
      rfl
    rw [htd, hto, ht] at ha
    obtain ⟨hcounts, hlimit⟩ := Segment.answers_limited v.maxElementLength htext ha
    refine ⟨hcounts, ?_⟩
    rw [ho] at hvo
    rw [hd] at hvd
    rw [hd, ho, hv, ← hvd, ← hvo] at hvs
    rw [List.append_assoc] at hvh'
    split
    · next hn =>
      rw [hn, ← hvd, ← hvo] at hlimit
      obtain ⟨w, hw, hwr, -⟩ := recognize_of_answers hlimit hvh'
      obtain ⟨hs, hw⟩ := hvs _ hw
      refine ⟨_, Prod.ext hs rfl, ?_⟩
      rw [hw, hwr.offset, hvo, ← hto, ← hreads.offset, ← hu, h]
    · next e he =>
      rw [he, ← hvd, ← hvo] at hlimit
      rw [(hvs _ rfl).1, recognize_of_fails hlimit hvh']
      rfl

/-- The limit on elements is exact. A segment that is read without trimming is read at the same
place with another limit, and with trimming or without it, if no value in it is longer than the
limit. Otherwise the error names the limit and the place just past the first character of data that
is too many in the first field that is too long. The length of a value is the number of its data
characters in the text: a released character counts once, and what releases or separates does not
count. -/
theorem segment_limited (hp : t.SamePlace text v) (ht : t.trims = false)
    (h : t.segment = (.ok (some s), u)) :
    (∀ f ∈ s.fields, (f.dataStops t.delimiters text).length = f.value.length) ∧
    ((∃ s' w, v.segment = (.ok (some s'), w)) ↔
      ∀ f ∈ s.fields, f.value.length ≤ v.maxElementLength) ∧
    (∀ s' w, v.segment = (.ok (some s'), w) → w.offset = u.offset ∧
      (v.trims = false → s' = s) ∧ (v.trims = true → s.TrimsTo s')) ∧
    ((∃ f ∈ s.fields, v.maxElementLength < f.value.length) →
      ∃ f offset, s.fields.find? (v.maxElementLength < ·.value.length) = some f ∧
        (f.dataStops t.delimiters text)[v.maxElementLength]? = some offset ∧
        v.segment.1 = .error (.elementTooLong v.maxElementLength offset)) := by
  have hp' : t.SamePlace text { v with trims := false } := { hp with }
  obtain ⟨hcounts, hlimit⟩ := segment_untrimmed_limited hp' ht rfl h
  have hr : Retrimmed v.trims { v with trims := false } v := ⟨rfl, rfl⟩
  obtain ⟨r, w, w', hw, hv, htw⟩ := hr.segment
  have hle : overrun? v.maxElementLength (s.fields.map (·.dataStops t.delimiters text)) = none ↔
      ∀ f ∈ s.fields, f.value.length ≤ v.maxElementLength := by
    rw [overrun?_eq_none_iff, List.forall_mem_map]
    exact forall₂_congr fun f hf ↦ by rw [hcounts f hf]
  refine ⟨hcounts, ?_⟩
  rw [hw] at hlimit
  split at hlimit
  · next hn =>
    obtain ⟨w₀, hw₀, ho⟩ := hlimit
    obtain ⟨rfl, rfl⟩ := Prod.mk.inj hw₀
    refine ⟨⟨fun _ ↦ hle.1 hn, fun _ ↦ ⟨_, _, hv⟩⟩, ?_, ?_⟩
    · rintro s' w'' hs
      obtain ⟨he, rfl⟩ := Prod.mk.inj (hv.symm.trans hs)
      obtain rfl := Option.some.inj (Except.ok.inj he)
      refine ⟨?_, fun hf ↦ ?_, fun hf ↦ ?_⟩
      · rw [htw.eq]
        exact ho
      · rw [hf, Segment.trimmed_false]
      · rw [hf]
        exact s.trimmed_trimsTo
    · rintro ⟨f, hf, hm⟩
      exact absurd (hle.1 hn f hf) (Nat.not_le.2 hm)
  · next e he =>
    obtain rfl : r = _ := hlimit
    refine ⟨⟨?_, fun h ↦ ?_⟩, ?_, fun _ ↦ ?_⟩
    · rintro ⟨s', w'', hs⟩
      cases hv.symm.trans hs
    · rw [hle.2 h] at he
      cases he
    · intro s' w'' hs
      cases hv.symm.trans hs
    · rw [overrun?_dataStops hcounts] at he
      obtain ⟨f, hf, ho⟩ := Option.bind_eq_some_iff.1 he
      exact ⟨f, e, hf, ho, by rw [hv]; rfl⟩

/-- The third character of data in the first of two repeated occurrences is too many. -/
theorem segment_limited_released :
    let text := "AB+a?+b*c:de+fgh'".toList
    let d := { Delimiters.edifact with repetition := some '*' }
    let t := ofRemainder d { trims := false } { source := .text text }
    let v := ofRemainder d { maxElementLength := 2 } { source := .text text }
    let f : Field := ⟨1, false, .simple "a+b", ⟨3, 7⟩⟩
    let s : Segment := ⟨"AB", [f, ⟨1, true, .composite [["c"], ["de"]], ⟨8, 12⟩⟩,
      ⟨2, false, .simple "fgh", ⟨13, 16⟩⟩], ⟨0, 17⟩⟩
    t.SamePlace text v ∧ t.trims = false ∧ t.segment.1 = .ok (some s) ∧
      f.dataStops d text = [4, 6, 7] ∧ v.segment.1 = .error (.elementTooLong 2 7) := by
  intro text d t v f s
  have hh : (Source.text text).Holds text := rfl
  have hp : t.SamePlace text v :=
    ⟨rfl, rfl, ⟨text, hh, rfl, nofun⟩, ⟨text, hh, rfl, nofun⟩, nofun, nofun⟩
  have hs : t.segment.1 = .ok (some s) := by decide +kernel
  have hf : f.dataStops d text = [4, 6, 7] := by decide +kernel
  obtain ⟨-, -, -, hlimit⟩ := segment_limited hp rfl (Prod.ext hs rfl)
  obtain ⟨g, offset, hg, ho, he⟩ := hlimit ⟨f, .head _, by decide⟩
  obtain rfl : f = g := Option.some.inj hg
  obtain rfl : 7 = offset := Option.some.inj ((congrArg (·[2]?) hf).symm.trans ho)
  exact ⟨hp, rfl, hs, hf, he⟩

end Scanner

end Edi
