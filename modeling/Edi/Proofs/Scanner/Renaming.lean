import Edi.Proofs.Delimiters
import Edi.Proofs.Scanner.Blank
import Edi.Proofs.Segment.Feed
import Edi.Text.Alphanumeric

namespace Edi

/-- Other characters in the place of those of some domain. Blanks stay blanks, and letters and
digits stay what they are. -/
structure Renaming where
  map : Char → Char
  domain : Char → Prop
  blank : ∀ c, Text.isBlankChar (map c) = Text.isBlankChar c
  alphanumeric : ∀ c, Text.isAlphanumeric c → map c = c

/-- Each character means among `d'` what the one it stands for means among `d`, and data are not
renamed. Nothing but its class decides on the meaning of a character. -/
structure Renaming.Carries (ρ : Renaming) (d d' : Delimiters) : Prop where
  classify : ∀ c, ρ.domain c → d'.classify (ρ.map c) = d.classify c
  data : ∀ c, ρ.domain c → d.classify c = .data → ρ.map c = c
  release : d.release = none
  tag : d.tag = none
  tag' : d'.tag = none

variable {ρ : Renaming}

namespace Segment

def Part.Settled : Part → Prop
  | tag _ => True
  | body b => b.current.released = false

theorem recognizer_congr {d d' : Delimiters} (h : d'.tag = d.tag) :
    recognizer d' = recognizer d := by
  funext trims maxLength start
  simp only [recognizer, h]

variable {d : Delimiters} {trims : Bool} {maxLength start offset : Nat} {p p' : Part} {c : Char}
  {k : CharClass}

theorem settled_of_feed_more (hk : k ≠ .release) (h : p.Settled)
    (hf : (recognizer d trims maxLength start).feed p offset c k = .more p') : p'.Settled := by
  cases recognizer_feed_eq_more hf with
  | letter => trivial
  | tagEnd => rfl
  | ended => rfl
  | grown ho =>
    cases Occurrence.step_eq_grown ho with
    | data => rfl
    | release => contradiction
    | subElement => exact h
    | subSubElement => exact h

theorem recognizer_feed_separator (hk : k ≠ .data) (h : p.Settled) (c' : Char) :
    let m := recognizer d trims maxLength start
    (∃ e, m.feed p offset c k = .take (.error e)) ∨
      m.feed p offset c' k = m.feed p offset c k := by
  intro m
  cases p with
  | tag letters =>
    cases k with
    | data => contradiction
    | field | terminator =>
      right
      simp only [m, recognizer, reduceCtorEq, false_and, or_false, ↓reduceIte]
    | subElement | subSubElement | release | repetition =>
      left
      simp [m, recognizer]
  | body b =>
    right
    have hb : b.current.released = false := h
    cases k <;> first
      | contradiction
      | simp only [m, recognizer, Occurrence.step, hb, Bool.false_eq_true, ↓reduceIte]

theorem recognizer_feed_renamed {d' : Delimiters} (hρ : ρ.Carries d d') (hp : p.Settled)
    (hc : ρ.domain c) :
    let m := recognizer d trims maxLength start
    (∃ e, m.feed p offset c (d.classify c) = .take (.error e)) ∨
      (m.feed p offset (ρ.map c) (d'.classify (ρ.map c)) = m.feed p offset c (d.classify c) ∧
        ∀ p', m.feed p offset c (d.classify c) = .more p' → p'.Settled) := by
  intro m
  have hsettled (p' : Part) : m.feed p offset c (d.classify c) = .more p' → p'.Settled :=
    settled_of_feed_more (Delimiters.classify_ne .release hρ.release (by simp) c) hp
  rw [hρ.classify c hc]
  by_cases hk : d.classify c = .data
  · rw [hρ.data c hc hk]
    exact .inr ⟨rfl, hsettled⟩
  · exact (recognizer_feed_separator hk hp _).imp_right fun he ↦ ⟨he, hsettled⟩

end Segment

structure Cursor.Renamed (ρ : Renaming) (k k' : Cursor) : Prop where
  holds : ∃ cs, k.Holds cs ∧ k'.Holds (cs.map ρ.map) ∧ ∀ c ∈ cs, ρ.domain c
  offset : k'.offset = k.offset
  last : k'.last = k.last
  behind : k.last = .character → ∃ c, ρ.domain c ∧ k.behind.head? = some c ∧
    k'.behind.head? = some (ρ.map c)

namespace Cursor.Renamed

variable {k k' j : Cursor}

theorem next_some {c : Char} (h : k.Renamed ρ k') (hk : k.next = (.ok (some c), j)) :
    ∃ j', k'.next = (.ok (some (ρ.map c)), j') ∧ j.Renamed ρ j' ∧ ρ.domain c := by
  obtain ⟨⟨cs, hc, hc', hd⟩, ho, hl, -⟩ := h
  cases cs with
  | nil =>
    obtain ⟨i, -, -, -, hn⟩ := hc.next_nil Source.holds_forecast
    rw [hk] at hn
    split at hn <;> simp at hn
  | cons b cs =>
    obtain ⟨i, hn, hi, hio, hil, hib⟩ := hc.next_cons Source.holds_forecast
    obtain ⟨j', hn', hj', hjo', hjl', hjb'⟩ := hc'.next_cons Source.holds_forecast
    obtain ⟨hb, rfl⟩ := Prod.mk.inj (hk.symm.trans hn)
    obtain rfl : c = b := Option.some.inj (Except.ok.inj hb)
    obtain ⟨hdc, hds⟩ := List.forall_mem_cons.1 hd
    refine ⟨j', hn', ⟨⟨cs, hi, hj', hds⟩, ?_, ?_, fun _ ↦ ⟨c, hdc, hib, hjb'⟩⟩, hdc⟩
    · rw [hjo', hio, ho]
    · rw [hjl', hil]

theorem next_none (h : k.Renamed ρ k') (hk : k.next = (.ok none, j)) :
    ∃ j', k'.next = (.ok none, j') ∧ j.Renamed ρ j' := by
  obtain ⟨⟨cs, hc, hc', hd⟩, ho, hl, -⟩ := h
  cases cs with
  | cons b cs =>
    obtain ⟨i, hn, -⟩ := hc.next_cons Source.holds_forecast
    simp [hk] at hn
  | nil =>
    obtain ⟨i, hi, hio, hil, hn⟩ := hc.next_nil Source.holds_forecast
    obtain ⟨j', hj', hjo', hjl', hn'⟩ := hc'.next_nil Source.holds_forecast
    have hne : k.last ≠ .endOfInput := by
      intro he
      simp [hn, he] at hk
    rw [if_neg hne] at hn
    rw [if_neg (hl ▸ hne)] at hn'
    obtain ⟨-, rfl⟩ := Prod.mk.inj (hk.symm.trans hn)
    refine ⟨j', hn', ⟨⟨[], hi, hj', hd⟩, by rw [hjo', hio, ho], by rw [hjl', hil], ?_⟩⟩
    intro he
    simp [hil] at he

theorem back (h : k.Renamed ρ k') (hk : k.back = (.ok (), j)) :
    ∃ j', k'.back = (.ok (), j') ∧ j.Renamed ρ j' := by
  obtain ⟨⟨cs, ⟨rest, hr, hcs, he⟩, ⟨rest', hr', hcs', he'⟩, hd⟩, ho, hl, hb⟩ := h
  simp only [Cursor.back] at hk
  split at hk
  · simp at hk
  · simp at hk
  · next hlast =>
    obtain ⟨-, rfl⟩ := Prod.mk.inj hk
    refine ⟨{ k' with last := .pushedBack }, by rw [Cursor.back, hl, hlast], ?_⟩
    exact ⟨⟨cs, ⟨rest, hr, hcs, he⟩, ⟨rest', hr', hcs', he'⟩, hd⟩, ho, rfl, by simp⟩
  · next hlast =>
    obtain ⟨-, rfl⟩ := Prod.mk.inj hk
    obtain ⟨c, hdc, hb, hb'⟩ := hb hlast
    refine ⟨_, by rw [Cursor.back, hl, hlast], ?_⟩
    refine ⟨⟨c :: cs, ⟨rest, hr, ?_, he⟩, ⟨rest', hr', ?_, he'⟩,
      List.forall_mem_cons.2 ⟨hdc, hd⟩⟩, ?_, rfl, by simp⟩
    · simp [List.take_one, hb, hcs]
    · simp [List.take_one, hb', hcs']
    · simp only [ho]

theorem peek (n : Nat) (h : k.Renamed ρ k') : ∃ cs j j', k.peek n = (.ok (cs.take n), j) ∧
    k'.peek n = (.ok ((cs.take n).map ρ.map), j') ∧ k.Holds cs ∧ j.Renamed ρ j' := by
  obtain ⟨⟨cs, hc, hc', hd⟩, ho, hl, hb⟩ := h
  obtain ⟨j, hj, hh, hjo, hjl, hjb⟩ := hc.peek Source.holds_forecast n
  obtain ⟨j', hj', hh', hjo', hjl', hjb'⟩ := hc'.peek Source.holds_forecast n
  rw [← List.map_take] at hj'
  refine ⟨cs, j, j', hj, hj', hc, ⟨cs, hh, hh', hd⟩, ?_, ?_, ?_⟩
  · rw [hjo, hjo', ho]
  · rw [hjl, hjl', hl]
  · rwa [hjl, hjb, hjb']

end Cursor.Renamed

namespace Scanner

/-- Two scanners at the same place of a text and of the renamed text. What they take the
characters for may differ. -/
structure Renamed (ρ : Renaming) (t u : Scanner) : Prop where
  cursor : t.cursor.Renamed ρ u.cursor
  trims : u.trims = t.trims
  maxElementLength : u.maxElementLength = t.maxElementLength

variable {t t' u : Scanner} {σ α : Type}

namespace Renamed

theorem offset (h : t.Renamed ρ u) : u.offset = t.offset := h.cursor.offset

theorem next_some {c : Char} (h : t.Renamed ρ u) (ht : t.next = (.ok (some c), t')) :
    ∃ u', u.next = (.ok (some (ρ.map c)), u') ∧ t'.Renamed ρ u' ∧ ρ.domain c := by
  simp only [Scanner.next] at ht
  split at ht
  · simp at ht
  · simp at ht
  · next b k hk =>
    obtain ⟨hb, rfl⟩ := Prod.mk.inj ht
    obtain rfl : b = c := Option.some.inj (Except.ok.inj hb)
    obtain ⟨j', hj', hr, hd⟩ := h.cursor.next_some hk
    refine ⟨_, by rw [Scanner.next, hj'], ?_, hd⟩
    exact ⟨hr, h.trims, h.maxElementLength⟩

theorem next_none (h : t.Renamed ρ u) (ht : t.next = (.ok none, t')) :
    ∃ u', u.next = (.ok none, u') ∧ t'.Renamed ρ u' := by
  simp only [Scanner.next] at ht
  split at ht
  · simp at ht
  · next k hk =>
    obtain ⟨-, rfl⟩ := Prod.mk.inj ht
    obtain ⟨j', hj', hr⟩ := h.cursor.next_none hk
    refine ⟨_, by rw [Scanner.next, hj'], ?_⟩
    exact ⟨hr, h.trims, h.maxElementLength⟩
  · simp at ht

theorem leave {answer : Except Error α} {a : α} (h : t.Renamed ρ u)
    (ht : t.leave answer = (.ok a, t')) :
    ∃ u', u.leave answer = (.ok a, u') ∧ t'.Renamed ρ u' := by
  obtain rfl := leave_eq_ok ht
  cases hk : t.cursor.back with
  | mk result k =>
    cases result with
    | error e => simp [Scanner.leave, Scanner.back, hk] at ht
    | ok _ =>
      obtain ⟨k', hk', hr⟩ := h.cursor.back hk
      cases hl : t.cursor.last <;>
        simp only [Scanner.leave, Scanner.back, hk, hk', hl, h.cursor.last, Prod.mk.injEq,
          true_and] at ht ⊢
      all_goals
        subst ht
        exact ⟨_, rfl, hr, h.trims, h.maxElementLength⟩

theorem peek (n : Nat) (h : t.Renamed ρ u) : ∃ cs v w, t.peek n = (.ok (cs.take n), v) ∧
    u.peek n = (.ok ((cs.take n).map ρ.map), w) ∧ t.cursor.Holds cs ∧ v.Renamed ρ w := by
  obtain ⟨cs, j, j', hj, hj', hc, hr⟩ := h.cursor.peek n
  refine ⟨cs, _, _, by rw [Scanner.peek, hj], by rw [Scanner.peek, hj'], hc, ?_⟩
  exact ⟨hr, h.trims, h.maxElementLength⟩

theorem recognize {m : Recognizer σ α} {p : σ → Prop} {d d' : Delimiters}
    (hm : ∀ s offset c, p s → ρ.domain c →
      (∃ e, m.feed s offset c (d.classify c) = .take (.error e)) ∨
      (m.feed s offset (ρ.map c) (d'.classify (ρ.map c)) = m.feed s offset c (d.classify c) ∧
        ∀ s', m.feed s offset c (d.classify c) = .more s' → p s'))
    {s : σ} {a : α} (hs : p s) (h : t.Renamed ρ u) (hd : t.delimiters = d)
    (hd' : u.delimiters = d') (ht : t.recognize m s = (.ok a, t')) :
    ∃ u', u.recognize m s = (.ok a, u') ∧ t'.Renamed ρ u' := by
  induction hb : t.bound using Nat.strongRecOn generalizing s t u with
  | ind n ih =>
    rw [recognize_eq m s t] at ht
    rw [recognize_eq m s u]
    rcases hn : t.next with ⟨e | _ | c, v⟩
    · simp [hn] at ht
    · obtain ⟨w, hw, hr⟩ := h.next_none hn
      simp only [hn, hw, hr.offset] at ht ⊢
      cases hf : m.finish s v.offset with
      | more s' => exact s'.elim
      | take answer =>
        simp only [hf] at ht ⊢
        obtain ⟨rfl, rfl⟩ := Prod.mk.inj ht
        exact ⟨w, rfl, hr⟩
      | leave answer =>
        simp only [hf] at ht ⊢
        exact hr.leave ht
    · obtain ⟨w, hw, hr, hc⟩ := h.next_some hn
      have hvd : v.delimiters = d := (delimiters_of_next hn).trans hd
      have hwd : w.delimiters = d' := (delimiters_of_next hw).trans hd'
      simp only [hn, hw, hr.offset, hvd, hwd] at ht ⊢
      rcases hm s v.offset c hs hc with ⟨e, he⟩ | ⟨he, hp⟩
      · simp [he] at ht
      · rw [he]
        cases hf : m.feed s v.offset c (d.classify c) with
        | more s' =>
          simp only [hf] at ht ⊢
          exact ih _ (hb ▸ (next_eq_some hn).1) (hp s' hf) hr hvd hwd ht rfl
        | take answer =>
          simp only [hf] at ht ⊢
          obtain ⟨rfl, rfl⟩ := Prod.mk.inj ht
          exact ⟨w, rfl, hr⟩
        | leave answer =>
          simp only [hf] at ht ⊢
          exact hr.leave ht

theorem skipBlank {found : Bool} (h : t.Renamed ρ u) (ht : t.skipBlank = (.ok found, t')) :
    ∃ u', u.skipBlank = (.ok found, u') ∧ t'.Renamed ρ u' := by
  refine h.recognize (p := fun _ ↦ True) (fun () offset c _ _ ↦ .inr ⟨?_, fun _ _ ↦ trivial⟩)
    trivial rfl rfl ht
  have hb := ρ.blank c
  simp only [Text.isBlankChar] at hb
  simp only [hb]

theorem pass (n : Nat) (h : t.Renamed ρ u) (ht : Scanner.pass n t = (.ok (), t')) :
    ∃ u', Scanner.pass n u = (.ok (), u') ∧ t'.Renamed ρ u' := by
  induction n generalizing t u with
  | zero =>
    obtain ⟨-, rfl⟩ := Prod.mk.inj ht
    exact ⟨u, rfl, h⟩
  | succ n ih =>
    simp only [Scanner.pass] at ht ⊢
    split at ht
    · next c v hn =>
      obtain ⟨w, hw, hr, -⟩ := h.next_some hn
      simp only [hw]
      exact ih hr ht
    · simp at ht
    · simp at ht

theorem passSegment (n : Nat) (h : t.Renamed ρ u) (ht : t.passSegment n = (.ok (), t')) :
    ∃ u', u.passSegment n = (.ok (), u') ∧ t'.Renamed ρ u' := by
  have hc : Renamed ρ { t with segmentText := [] } { u with segmentText := [] } :=
    ⟨h.cursor, h.trims, h.maxElementLength⟩
  simp only [Scanner.passSegment] at ht
  split at ht
  · next v hv =>
    obtain ⟨-, rfl⟩ := Prod.mk.inj ht
    obtain ⟨w, hw, hr⟩ := hc.pass n hv
    refine ⟨_, by simp only [Scanner.passSegment, hw]; rfl, ?_⟩
    exact ⟨hr.cursor, hr.trims, hr.maxElementLength⟩
  · simp at ht

theorem segment {o : Option Segment} (hρ : ρ.Carries t.delimiters u.delimiters)
    (h : t.Renamed ρ u) (ht : t.segment = (.ok o, t')) :
    ∃ u', u.segment = (.ok o, u') ∧ t'.Renamed ρ u' := by
  simp only [Scanner.segment] at ht ⊢
  split at ht
  · simp at ht
  · next v hv =>
    obtain ⟨ho, rfl⟩ := Prod.mk.inj ht
    obtain rfl := Except.ok.inj ho
    obtain ⟨w, hw, hr⟩ := h.skipBlank hv
    simp only [hw]
    exact ⟨w, rfl, hr⟩
  · next v hv =>
    obtain ⟨w, hw, hr⟩ := h.skipBlank hv
    have hvd : v.delimiters = t.delimiters := by rw [← t.skipBlank_delimiters, hv]
    have hwd : w.delimiters = u.delimiters := by rw [← u.skipBlank_delimiters, hw]
    rw [← hvd, ← hwd] at hρ
    have hm : Segment.recognizer w.delimiters w.trims w.maxElementLength w.offset =
        Segment.recognizer v.delimiters v.trims v.maxElementLength v.offset := by
      rw [Segment.recognizer_congr (hρ.tag'.trans hρ.tag.symm), hr.trims, hr.maxElementLength,
        hr.offset]
    simp only [hw, hm]
    split at ht
    · simp at ht
    · next s x hx =>
      obtain ⟨ho, rfl⟩ := Prod.mk.inj ht
      obtain rfl := Except.ok.inj ho
      have hb : Renamed ρ { v with segmentText := [], repeats := false, pendingEnd := none }
          { w with segmentText := [], repeats := false, pendingEnd := none } :=
        ⟨hr.cursor, hr.trims, hr.maxElementLength⟩
      have hz : Segment.Part.Settled (.tag []) := trivial
      obtain ⟨y, hy, hxy⟩ := hb.recognize (p := Segment.Part.Settled)
        (fun p offset c hp hc ↦ Segment.recognizer_feed_renamed hρ hp hc) hz rfl rfl hx
      simp only [hy]
      exact ⟨_, rfl, hxy.cursor, hxy.trims, hxy.maxElementLength⟩

end Renamed

end Scanner

end Edi
