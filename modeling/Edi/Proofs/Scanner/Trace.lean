import Mathlib.Data.List.Induction
import Edi.Proofs.Scanner.Blank
import Edi.Proofs.Scanner.Conservation

namespace Edi

variable {σ α : Type} {m : Recognizer σ α} {d : Delimiters} {offset : Nat} {s s' s'' : σ}
  {cs ds : List Char} {c : Char} {a : α} {e : Error}

namespace Recognizer

/-- From one state to another by the characters `cs`, the first of which stands at the offset. -/
inductive Advances (m : Recognizer σ α) (d : Delimiters) (offset : Nat) (s : σ) :
    List Char → σ → Prop
  | refl : Advances m d offset s [] s
  | step {cs : List Char} {c : Char} {s' s'' : σ} (h : Advances m d offset s cs s')
      (hm : m.feed s' (offset + cs.length + 1) c (d.classify c) = .more s'') :
      Advances m d offset s (cs ++ [c]) s''

theorem Advances.one (hm : m.feed s (offset + 1) c (d.classify c) = .more s') :
    m.Advances d offset s [c] s' := Advances.refl.step hm

theorem Advances.trans (h : m.Advances d offset s cs s')
    (h' : m.Advances d (offset + cs.length) s' ds s'') :
    m.Advances d offset s (cs ++ ds) s'' := by
  induction h' with
  | refl => simpa using h
  | step _ hm ih =>
    rw [← List.append_assoc]
    refine .step ih ?_
    rwa [List.length_append, ← Nat.add_assoc]

/-- From every state with the property `p` the characters `cs` lead to one with the property `q`. -/
def Leads (m : Recognizer σ α) (d : Delimiters) (cs : List Char) (p q : σ → Prop) : Prop :=
  ∀ s, p s → ∀ offset, ∃ s', m.Advances d offset s cs s' ∧ q s'

variable {p q r : σ → Prop}

theorem Leads.refl : m.Leads d [] p p := fun s hs _ ↦ ⟨s, .refl, hs⟩

theorem Leads.trans (h : m.Leads d cs p q) (h' : m.Leads d ds q r) :
    m.Leads d (cs ++ ds) p r := by
  intro s hs offset
  obtain ⟨s', ha, hq⟩ := h s hs offset
  obtain ⟨s'', ha', hr⟩ := h' s' hq (offset + cs.length)
  exact ⟨s'', ha.trans ha', hr⟩

theorem Leads.flatMap {β : Type} {f : β → List Char} {p : List β → σ → Prop} {items : List β}
    (h : ∀ done x todo, items = done ++ x :: todo → m.Leads d (f x) (p done) (p (done ++ [x]))) :
    m.Leads d (items.flatMap f) (p []) (p items) := by
  induction items using List.reverseRecOn with
  | nil => exact .refl
  | append_singleton items x ih =>
    rw [List.flatMap_append, List.flatMap_singleton]
    refine (ih fun done y todo he ↦ h done y (todo ++ [x]) ?_).trans (h items x [] rfl)
    rw [he, List.append_assoc, List.cons_append]

/-- After the characters `cs` the character `c` brings the answer. -/
def Answers (m : Recognizer σ α) (d : Delimiters) (offset : Nat) (s : σ) (cs : List Char)
    (c : Char) (a : α) : Prop :=
  ∃ s', m.Advances d offset s cs s' ∧
    m.feed s' (offset + cs.length + 1) c (d.classify c) = .take (.ok a)

theorem Answers.cons {b : Char} (hm : m.feed s (offset + 1) b (d.classify b) = .more s')
    (h : m.Answers d (offset + 1) s' cs c a) : m.Answers d offset s (b :: cs) c a := by
  obtain ⟨s'', hs, ht⟩ := h
  refine ⟨s'', (Advances.one hm).trans hs, ?_⟩
  rwa [List.length_cons, Nat.add_comm cs.length, ← Nat.add_assoc]

theorem Answers.invariant {p : List Char → σ → Prop} {q : List Char → Char → α → Prop}
    (h : m.Answers d offset s cs c a) (hs : p [] s)
    (hm : ∀ cs c s s', p cs s →
      m.feed s (offset + cs.length + 1) c (d.classify c) = .more s' → p (cs ++ [c]) s')
    (ht : ∀ cs c s a, p cs s →
      m.feed s (offset + cs.length + 1) c (d.classify c) = .take (.ok a) → q cs c a) :
    q cs c a := by
  obtain ⟨s', ha, hf⟩ := h
  have hp : p cs s' := by
    clear hf
    induction ha with
    | refl => exact hs
    | step _ hm' ih => exact hm _ _ _ _ ih hm'
  exact ht _ _ _ _ hp hf

def Fails (m : Recognizer σ α) (d : Delimiters) (offset : Nat) (s : σ) (cs : List Char)
    (e : Error) : Prop :=
  ∃ ds c rest s', cs = ds ++ c :: rest ∧ m.Advances d offset s ds s' ∧
    m.feed s' (offset + ds.length + 1) c (d.classify c) = .take (.error e)

theorem Fails.append (h : m.Fails d offset s cs e) (ds : List Char) :
    m.Fails d offset s (cs ++ ds) e := by
  obtain ⟨bs, c, rest, s', rfl, ha, hf⟩ := h
  exact ⟨bs, c, rest ++ ds, s', List.append_assoc .., ha, hf⟩

theorem Advances.fails (h : m.Advances d offset s cs s')
    (hf : m.feed s' (offset + cs.length + 1) c (d.classify c) = .take (.error e)) :
    m.Fails d offset s (cs ++ [c]) e := ⟨cs, c, [], s', rfl, h, hf⟩

end Recognizer

namespace Scanner

variable {t u v : Scanner} {rest text : List Char}

def SameSettings (t u : Scanner) : Prop :=
  u = { t with cursor := u.cursor, segmentText := u.segmentText, retained := u.retained }

theorem SameSettings.trans (h : t.SameSettings u) (h' : u.SameSettings v) : t.SameSettings v := by
  rw [SameSettings] at h h'
  rw [h', h]
  rfl

theorem SameSettings.delimiters (h : t.SameSettings u) : u.delimiters = t.delimiters := by
  rw [SameSettings] at h
  rw [h]

theorem SameSettings.trims (h : t.SameSettings u) : u.trims = t.trims := by
  rw [SameSettings] at h
  rw [h]

theorem SameSettings.maxElementLength (h : t.SameSettings u) :
    u.maxElementLength = t.maxElementLength := by
  rw [SameSettings] at h
  rw [h]

theorem next_settings {r : Except Error (Option Char)} (h : t.next = (r, u)) :
    t.SameSettings u := by
  simp only [next] at h
  split at h <;> obtain ⟨-, rfl⟩ := Prod.mk.inj h <;> rfl

theorem leave_settings {answer answer' : Except Error α} (h : t.leave answer = (answer', u)) :
    t.SameSettings u := by
  have hb : t.SameSettings t.back.2 := by
    simp only [back]
    repeat' split
    all_goals rfl
  simp only [leave] at h
  split at h <;> next hk => obtain ⟨-, rfl⟩ := Prod.mk.inj h; rwa [hk] at hb

theorem recognize_settings {answer : Except Error α} (h : t.recognize m s = (answer, u)) :
    t.SameSettings u := by
  fun_induction recognize m s t with
  | case1 _ _ _ _ hn | case2 _ _ _ hn | case5 _ _ _ _ hn =>
    obtain ⟨-, rfl⟩ := Prod.mk.inj h
    exact next_settings hn
  | case3 _ _ _ hn => exact (next_settings hn).trans (leave_settings h)
  | case4 _ _ _ _ hn _ _ ih => exact (next_settings hn).trans (ih h)
  | case6 _ _ _ _ hn => exact (next_settings hn).trans (leave_settings h)

theorem skipBlank_settings {answer : Except Error Bool} (h : t.skipBlank = (answer, u)) :
    t.SameSettings u := recognize_settings h

/-- Between the two the characters `cs` were read, and nothing else has changed. -/
structure Reads (cs : List Char) (t u : Scanner) : Prop where
  settings : t.SameSettings u
  text : u.segmentText = cs.reverse ++ t.segmentText
  offset : u.offset = t.offset + cs.length
  holds {text : List Char} : t.cursor.Holds text → ∃ rest, text = cs ++ rest ∧ u.cursor.Holds rest

theorem Reads.refl (t : Scanner) : t.Reads [] t :=
  ⟨rfl, rfl, rfl, fun {text} h ↦ ⟨text, rfl, h⟩⟩

theorem Reads.trans (h : t.Reads cs u) (h' : u.Reads ds v) : t.Reads (cs ++ ds) v := by
  constructor
  · exact h.settings.trans h'.settings
  · rw [h'.text, h.text, List.reverse_append, List.append_assoc]
  · rw [h'.offset, h.offset, List.length_append, Nat.add_assoc]
  · intro text ht
    obtain ⟨rest, rfl, hu⟩ := h.holds ht
    obtain ⟨rest', rfl, hv⟩ := h'.holds hu
    exact ⟨rest', (List.append_assoc ..).symm, hv⟩

theorem Reads.delimiters (h : t.Reads cs u) : u.delimiters = t.delimiters := h.settings.delimiters

theorem reads_of_next (h : t.next = (.ok (some c), u)) : t.Reads [c] u := by
  have hs := next_settings h
  have ho := next_offset h
  simp only [next] at h
  split at h
  · simp at h
  · simp at h
  · next b k hk =>
    obtain ⟨hb, rfl⟩ := Prod.mk.inj h
    obtain rfl : b = c := Option.some.inj (Except.ok.inj hb)
    refine ⟨hs, rfl, ho, ?_⟩
    intro text ht
    cases text with
    | nil =>
      obtain ⟨j, -, -, -, hn⟩ := ht.next_nil Source.holds_forecast
      rw [hk] at hn
      split at hn <;> simp at hn
    | cons e rest =>
      obtain ⟨j, hn, hj, -⟩ := ht.next_cons Source.holds_forecast
      obtain ⟨he, rfl⟩ := Prod.mk.inj (hk.symm.trans hn)
      obtain rfl : b = e := Option.some.inj (Except.ok.inj he)
      exact ⟨rest, rfl, hj⟩

theorem recognize_answers (hm : ∀ s offset c k a, m.feed s offset c k ≠ .leave a)
    (hf : ∀ s offset a, m.finish s offset ≠ .take (.ok a) ∧ m.finish s offset ≠ .leave (.ok a))
    (h : t.recognize m s = (.ok a, u)) :
    ∃ cs c, m.Answers t.delimiters t.offset s cs c a ∧ t.Reads (cs ++ [c]) u ∧
      u.cursor.last = .character := by
  fun_induction recognize m s t with
  | case1 => simp at h
  | case2 s t v hn answer hv =>
    obtain ⟨rfl, rfl⟩ := Prod.mk.inj h
    exact absurd hv (hf _ _ a).1
  | case3 s t v hn answer hv =>
    obtain rfl := leave_eq_ok h
    exact absurd hv (hf _ _ a).2
  | case4 s t c v hn s' hv ih =>
    obtain ⟨cs, e, ha, hr, hl⟩ := ih h
    have hn := reads_of_next hn
    rw [hn.delimiters, hn.offset] at hv ha
    exact ⟨c :: cs, e, ha.cons hv, hn.trans hr, hl⟩
  | case5 s t c v hn answer hv =>
    obtain ⟨rfl, rfl⟩ := Prod.mk.inj h
    have hr := reads_of_next hn
    rw [hr.delimiters, hr.offset] at hv
    exact ⟨[], c, ⟨s, .refl, hv⟩, hr, (next_eq_some hn).2⟩
  | case6 s t c v hn answer hv => exact absurd hv (hm _ _ _ _ _)

theorem recognize_of_advances (h : m.Advances t.delimiters t.offset s cs s')
    (ht : t.cursor.Holds (cs ++ rest)) :
    ∃ u, t.recognize m s = u.recognize m s' ∧ t.Reads cs u ∧ u.cursor.Holds rest := by
  induction h generalizing rest with
  | refl => exact ⟨t, rfl, .refl t, ht⟩
  | @step cs c s' s'' _ hm ih =>
    rw [List.append_assoc] at ht
    obtain ⟨u, hu, hr, hh⟩ := ih ht
    obtain ⟨v, hv, hvh, -⟩ := next_of_holds_cons hh
    have hn := reads_of_next hv
    refine ⟨v, ?_, hr.trans hn, hvh⟩
    rw [hu, recognize_eq m s' u]
    have hd : v.delimiters = t.delimiters := hn.delimiters.trans hr.delimiters
    have ho : v.offset = t.offset + cs.length + 1 := by rw [hn.offset, hr.offset]; rfl
    simp only [hv, hd, ho, hm]

theorem recognize_of_answers (h : m.Answers t.delimiters t.offset s cs c a)
    (ht : t.cursor.Holds (cs ++ c :: rest)) :
    ∃ u, t.recognize m s = (.ok a, u) ∧ t.Reads (cs ++ [c]) u ∧ u.cursor.Holds rest ∧
      u.cursor.last = .character := by
  obtain ⟨s', hs, hf⟩ := h
  obtain ⟨u, hu, hr, hh⟩ := recognize_of_advances hs ht
  obtain ⟨v, hv, hvh, -, hvl, -⟩ := next_of_holds_cons hh
  have hn := reads_of_next hv
  refine ⟨v, ?_, hr.trans hn, hvh, hvl⟩
  rw [hu, recognize_eq m s' u]
  have hd : v.delimiters = t.delimiters := hn.delimiters.trans hr.delimiters
  have ho : v.offset = t.offset + cs.length + 1 := by rw [hn.offset, hr.offset]; rfl
  simp only [hv, hd, ho, hf]

theorem recognize_of_fails (h : m.Fails t.delimiters t.offset s cs e)
    (ht : t.cursor.Holds (cs ++ rest)) :
    (t.recognize m s).1 = .error e := by
  obtain ⟨ds, c, cs', s', rfl, ha, hf⟩ := h
  rw [List.append_assoc] at ht
  obtain ⟨u, hu, hr, hh⟩ := recognize_of_advances ha ht
  obtain ⟨v, hv, -⟩ := next_of_holds_cons hh
  have hn := hr.trans (reads_of_next hv)
  have ho : v.offset = t.offset + ds.length + 1 := by
    rw [hn.offset, List.length_append]
    rfl
  rw [hu, recognize_eq m s' u]
  simp only [hv, hn.delimiters, ho, hf]

variable {seg : Segment}

theorem segment_answers (h : t.segment = (.ok (some seg), u)) :
    ∃ v cs c, t.skipBlank = (.ok true, v) ∧
      (Segment.recognizer t.delimiters t.trims t.maxElementLength v.offset).Answers t.delimiters
        v.offset (.tag []) cs c seg ∧
      u.segmentText = (cs ++ [c]).reverse ∧ u.offset = v.offset + (cs ++ [c]).length ∧
      u.cursor.last = .character ∧
      ∀ {text}, v.cursor.Holds text → ∃ rest, text = cs ++ [c] ++ rest ∧ u.cursor.Holds rest := by
  simp only [segment] at h
  split at h
  · simp at h
  · simp at h
  · next v hv =>
    split at h
    · simp at h
    · next seg' w hr =>
      obtain ⟨hs, rfl⟩ := Prod.mk.inj h
      obtain rfl := Option.some.inj (Except.ok.inj hs)
      have hset := skipBlank_settings hv
      obtain ⟨cs, c, ha, hreads, hl⟩ := recognize_answers
        (Segment.recognizer_feed_ne_leave _ _ _ _) (Segment.recognizer_finish_ne_ok _ _ _ _) hr
      rw [← hset.delimiters, ← hset.trims, ← hset.maxElementLength]
      exact ⟨v, cs, c, hv, ha, by simpa using hreads.text, hreads.offset, hl, hreads.holds⟩

theorem isBlank_of_segment (ht : t.cursor.Holds text) (hl : t.cursor.last ≠ .endOfInput)
    (h : t.segment = (.ok none, u)) : Text.IsBlank text ∧ u.cursor.Holds [] ∧
      u.offset = t.offset + text.length ∧ u.cursor.last ≠ .endOfInput := by
  rcases Text.isBlank_or_exists text with hb | ⟨bs, c, rest, rfl, hb, hc⟩
  · obtain ⟨v, hv, hh, ho, hvl⟩ := skipBlank_of_isBlank hb ht hl
    simp only [segment, hv] at h
    obtain ⟨-, rfl⟩ := Prod.mk.inj h
    exact ⟨hb, hh, ho, by simp [hvl]⟩
  · obtain ⟨v, hv, -⟩ := skipBlank_of_not_isBlank hb hc ht hl
    simp only [segment, hv] at h
    split at h <;> simp at h

/-- A text begins with a segment that is read from it, but for blanks. -/
theorem segment_reads (ht : t.cursor.Holds text) (hl : t.cursor.last ≠ .endOfInput)
    (h : t.segment = (.ok (some seg), u)) :
    ∃ bs cs c rest, text = bs ++ (cs ++ [c]) ++ rest ∧ Text.IsBlank bs ∧
      (Segment.recognizer t.delimiters t.trims t.maxElementLength (t.offset + bs.length)).Answers
        t.delimiters (t.offset + bs.length) (.tag []) cs c seg ∧
      u.segmentText = (cs ++ [c]).reverse ∧
      u.offset = t.offset + bs.length + (cs ++ [c]).length ∧
      u.cursor.last ≠ .endOfInput ∧ u.cursor.Holds rest := by
  obtain ⟨v, cs, c, hv, ha, hu, ho, hul, hh⟩ := segment_answers h
  rcases Text.isBlank_or_exists text with hb | ⟨bs, b, rest, rfl, hb, hc⟩
  · obtain ⟨w, hw, -⟩ := skipBlank_of_isBlank hb ht hl
    simp [hv] at hw
  · obtain ⟨w, hw, hwh, hwo, -⟩ := skipBlank_of_not_isBlank hb hc ht hl
    obtain rfl : v = w := congrArg Prod.snd (hv.symm.trans hw)
    obtain ⟨rest', hr, hur⟩ := hh hwh
    rw [hwo] at ha ho
    refine ⟨bs, cs, c, rest', ?_, hb, ha, hu, ho, by simp [hul], hur⟩
    rw [hr, ← List.append_assoc]

theorem segment_of_recognize {bs : List Char} {b : Char} (hb : Text.IsBlank bs)
    (hc : Text.isBlankChar b = false) (ht : t.cursor.Holds (bs ++ b :: cs))
    (hl : t.cursor.last ≠ .endOfInput) :
    ∃ v : Scanner, v.cursor.Holds (b :: cs) ∧ v.delimiters = t.delimiters ∧
      v.offset = t.offset + bs.length ∧
      ∀ r, v.recognize (Segment.recognizer t.delimiters t.trims t.maxElementLength
          (t.offset + bs.length)) (.tag []) = r →
        t.segment.1 = r.1.map some ∧ t.segment.2.offset = r.2.offset := by
  obtain ⟨v, hv, hh, ho, -⟩ := skipBlank_of_not_isBlank hb hc ht hl
  have hs := skipBlank_settings hv
  refine ⟨{ v with segmentText := [], repeats := false, pendingEnd := none }, hh, hs.delimiters,
    ho, fun r hr ↦ ?_⟩
  rw [← hs.delimiters, ← hs.trims, ← hs.maxElementLength, ← ho] at hr
  simp only [segment, hv, hr]
  rcases r with ⟨e | s, u⟩
  all_goals exact ⟨rfl, rfl⟩

/-- The segment that some characters stand for is read from a text that begins with them, but for
blanks. -/
theorem segment_of_answers {bs : List Char} {b : Char} (hb : Text.IsBlank bs)
    (hc : Text.isBlankChar b = false) (ht : t.cursor.Holds (bs ++ (b :: cs ++ c :: rest)))
    (hl : t.cursor.last ≠ .endOfInput)
    (h : (Segment.recognizer t.delimiters t.trims t.maxElementLength
      (t.offset + bs.length)).Answers t.delimiters (t.offset + bs.length) (.tag []) (b :: cs) c
        seg) :
    ∃ u, t.segment = (.ok (some seg), u) ∧ u.segmentText = (b :: cs ++ [c]).reverse ∧
      u.offset = t.offset + bs.length + (b :: cs ++ [c]).length ∧
      u.cursor.last ≠ .endOfInput ∧ u.cursor.Holds rest := by
  obtain ⟨v, hv, hh, ho, -⟩ := skipBlank_of_not_isBlank hb hc ht hl
  have hset := skipBlank_settings hv
  rw [← hset.delimiters, ← hset.trims, ← hset.maxElementLength, ← ho] at h
  obtain ⟨u, hu, hr, hur, hul⟩ := recognize_of_answers
    (t := { v with segmentText := [], repeats := false, pendingEnd := none }) h hh
  refine ⟨{ u with segmentCount := u.segmentCount + 1 }, ?_, ?_, ?_, by simp [hul], hur⟩
  · simp only [segment, hv, hu]
  · simpa using hr.text
  · rw [← ho]
    exact hr.offset

end Scanner

end Edi
