import Edi.Cursor
import Edi.Proofs.Error
import Edi.Proofs.Source

namespace Edi

/-- Answers that correspond by `f`, and states that agree after them. -/
def Lockstep {α β σ : Type} (f : α → β) (agree : σ → σ → Prop) (x : α × σ) (y : β × σ) : Prop :=
  ∃ answer s s', x = (answer, s) ∧ y = (f answer, s') ∧ agree s s'

namespace Lockstep

variable {α β σ : Type} {f : α → β} {agree : σ → σ → Prop} {x : α × σ} {y : β × σ} {s s' : σ}

theorem intro (answer : α) (h : agree s s') : Lockstep f agree (answer, s) (f answer, s') :=
  ⟨answer, s, s', rfl, rfl, h⟩

theorem follow {answer : α} (h : Lockstep f agree x y) (hx : x = (answer, s)) :
    ∃ s', y = (f answer, s') ∧ agree s s' := by
  obtain ⟨answer', t, t', ht, hy, ha⟩ := h
  obtain ⟨rfl, rfl⟩ := Prod.mk.inj (ht.symm.trans hx)
  exact ⟨t', hy, ha⟩

end Lockstep

namespace Cursor

variable {k k' : Cursor} {cs : List Char} {c : Char}

@[simp] theorem fill_offset (need : Nat) (k : Cursor) : (k.fill need).2.offset = k.offset := by
  fun_induction fill need k with
  | case1 => rfl
  | case2 => rfl
  | case3 k hk d ds s hr ih => exact ih
  | case4 => rfl

@[simp] theorem fill_last (need : Nat) (k : Cursor) : (k.fill need).2.last = k.last := by
  fun_induction fill need k with
  | case1 => rfl
  | case2 => rfl
  | case3 k hk d ds s hr ih => exact ih
  | case4 => rfl

@[simp] theorem fill_behind (need : Nat) (k : Cursor) :
    (k.fill need).2.behind.head? = k.behind.head? := by
  -- What is dropped to make room is never the character that may be pushed back.
  have hc (k : Cursor) : k.compact.behind.head? = k.behind.head? := by
    simp [compact, List.head?_take]
  fun_induction fill need k with
  | case1 k => exact hc k
  | case2 k => exact hc k
  | case3 k hk d ds s hr ih => exact ih.trans (hc k)
  | case4 => rfl

theorem next_offset {k j : Cursor} (h : k.next = (.ok (some c), j)) : j.offset = k.offset + 1 := by
  have ho := k.fill_offset 1
  simp only [next] at h
  split at h
  · simp at h
  · next hf =>
    rw [hf] at ho
    split at h
    · obtain ⟨-, rfl⟩ := Prod.mk.inj h
      exact congrArg (· + 1) ho
    · split at h <;> simp at h

theorem room_ne_zero {need : Nat} (h : k.lacks need) : k.compact.room need ≠ 0 := by
  have hl := lacks_iff.1 h
  simp only [room, compact]
  omega

/-- The characters still to come, whether they are ahead or not yet taken from the source, for
which `p` tells them. -/
def Bears (p : Source → List Char → Prop) (k : Cursor) (cs : List Char) : Prop :=
  ∃ rest, p k.source rest ∧ k.ahead ++ rest = cs ∧ (k.exhausted → rest = [])

section Bears

variable {p : Source → List Char → Prop} (hp : Source.Forecast p)

include hp

theorem Bears.fill (need : Nat) (h : k.Bears p cs) : (k.fill need).1 = .ok () ∧
    (k.fill need).2.Bears p cs ∧ (k.fill need).2.ahead.take need = cs.take need := by
  fun_induction Cursor.fill need k with
  | case1 k hk e s hr =>
    obtain ⟨rest, hs, rfl, -⟩ := h
    obtain ⟨n, -, hn, -⟩ := hp.read (room_ne_zero hk.1) hs
    rw [hr] at hn
    simp at hn
  | case2 k hk s hr =>
    obtain ⟨rest, hs, rfl, -⟩ := h
    obtain ⟨n, hl, hn, hh, hne⟩ := hp.read (room_ne_zero hk.1) hs
    rw [hr] at hn hh
    have hnil : rest = [] := by
      by_contra hc
      have ht := congrArg List.length (Except.ok.inj hn)
      rw [List.length_take, List.length_nil] at ht
      have := hne hc
      omega
    subst hnil
    refine ⟨rfl, ⟨[], by simpa using hh, rfl, fun _ ↦ rfl⟩, ?_⟩
    simp [compact]
  | case3 k hk d ds s hr ih =>
    obtain ⟨rest, hs, rfl, -⟩ := h
    obtain ⟨n, hl, hn, hh, -⟩ := hp.read (room_ne_zero hk.1) hs
    rw [hr] at hn hh
    refine ih ⟨rest.drop n, hh, ?_, fun he ↦ absurd he hk.2⟩
    rw [Except.ok.inj hn, List.append_assoc, List.take_append_drop]
  | case4 k hk =>
    obtain ⟨rest, hs, rfl, he⟩ := h
    refine ⟨rfl, ⟨rest, hs, rfl, he⟩, ?_⟩
    by_cases hx : k.exhausted
    · rw [he hx, List.append_nil]
    · have hl : ¬k.lacks need := fun hl ↦ hk ⟨hl, hx⟩
      rw [lacks_iff] at hl
      rw [List.take_append_of_le_length (Nat.not_lt.1 hl)]

theorem Bears.fill_one (h : k.Bears p cs) : ∃ j, k.fill 1 = (.ok (), j) ∧ j.Bears p cs ∧
    j.offset = k.offset ∧ j.last = k.last ∧ j.ahead.head? = cs.head? := by
  obtain ⟨hf, hh, ht⟩ := h.fill hp 1
  refine ⟨(k.fill 1).2, Prod.ext hf rfl, hh, fill_offset 1 k, fill_last 1 k, ?_⟩
  simpa [List.take_one] using congrArg List.head? ht

theorem Bears.next_cons (h : k.Bears p (c :: cs)) : ∃ j, k.next = (.ok (some c), j) ∧
    j.Bears p cs ∧ j.offset = k.offset + 1 ∧ j.last = .character ∧ j.behind.head? = some c := by
  obtain ⟨j, hj, ⟨rest, hs, hc, he⟩, ho, -, ha⟩ := h.fill_one hp
  cases hja : j.ahead with
  | nil => simp [hja] at ha
  | cons d ahead =>
    rw [hja] at ha hc
    obtain ⟨rfl, hcs⟩ := List.cons.inj hc
    refine ⟨{ j with
      ahead, behind := d :: j.behind, offset := j.offset + 1, last := .character }, ?_, ?_, ?_,
      rfl, rfl⟩
    · simp only [next, hj, hja]
    · exact ⟨rest, hs, hcs, he⟩
    · simp only [ho]

theorem Bears.next_nil (h : k.Bears p []) : ∃ j, j.Bears p [] ∧ j.offset = k.offset ∧
    j.last = .endOfInput ∧ k.next =
      (if k.last = .endOfInput then .error (.internal "end of input read twice") else .ok none,
        j) := by
  obtain ⟨j, hj, hh, ho, hl, ha⟩ := h.fill_one hp
  have hja : j.ahead = [] := by simpa using ha
  by_cases hk : k.last = .endOfInput
  · refine ⟨j, hh, ho, hl.trans hk, ?_⟩
    simp [next, hj, hja, hl, hk]
  · refine ⟨{ j with last := .endOfInput }, hh, ho, rfl, ?_⟩
    simp [next, hj, hja, hl, hk]

theorem Bears.peek (n : Nat) (h : k.Bears p cs) : ∃ j, k.peek n = (.ok (cs.take n), j) ∧
    j.Bears p cs ∧ j.offset = k.offset ∧ j.last = k.last ∧
    j.behind.head? = k.behind.head? := by
  obtain ⟨hf, hh, ht⟩ := h.fill hp n
  refine ⟨(k.fill n).2, ?_, hh, fill_offset n k, fill_last n k, fill_behind n k⟩
  rw [← ht, Cursor.peek, (Prod.ext hf rfl : k.fill n = (.ok (), (k.fill n).2))]

end Bears

/-- The characters still to come, whether they are ahead or not yet taken from the source. -/
abbrev Holds : Cursor → List Char → Prop := Bears Source.Holds

theorem Holds.unique {ds : List Char} (h : k.Holds cs) (h' : k.Holds ds) : cs = ds := by
  obtain ⟨rest, hs, rfl, -⟩ := h
  obtain ⟨rest', hs', rfl, -⟩ := h'
  rw [hs.unique hs']

/-- Two cursors before the same text, as `p` tells it, however much of it either has ahead. All
offsets of `k'` are greater by the `distance`. -/
structure AgreeBy (p : Source → List Char → Prop) (distance : Nat) (k k' : Cursor) : Prop where
  bears : ∃ cs, k.Bears p cs ∧ k'.Bears p cs
  offset : k'.offset = k.offset + distance
  last : k'.last = k.last
  /-- The character that may be pushed back is the same, and neither has dropped it. -/
  behind : k.last = .character →
    0 < k.offset ∧ ∃ c, k.behind.head? = some c ∧ k'.behind.head? = some c

/-- Two cursors before the same text that may have come there on different ways, either both by the
end of input or neither. -/
structure LevelBy (p : Source → List Char → Prop) (distance : Nat) (k k' : Cursor) : Prop where
  bears : ∃ cs, k.Bears p cs ∧ k'.Bears p cs
  offset : k'.offset = k.offset + distance
  ended : k'.last = .endOfInput ↔ k.last = .endOfInput

section AgreeBy

variable {p : Source → List Char → Prop} {distance : Nat}

theorem AgreeBy.level (h : k.AgreeBy p distance k') : k.LevelBy p distance k' :=
  ⟨h.bears, h.offset, by rw [h.last]⟩

theorem LevelBy.next (hp : Source.Forecast p) (h : k.LevelBy p distance k') :
    Lockstep (Error.shiftOr distance id) (AgreeBy p distance) k.next k'.next := by
  obtain ⟨⟨cs, hk, hk'⟩, ho, hl⟩ := h
  cases cs with
  | nil =>
    obtain ⟨j, hj, hjo, hjl, hn⟩ := hk.next_nil hp
    obtain ⟨j', hj', hjo', hjl', hn'⟩ := hk'.next_nil hp
    refine ⟨_, j, j', hn, ?_, ⟨[], hj, hj'⟩, by rw [hjo, hjo', ho], by rw [hjl, hjl'], ?_⟩
    · rw [hn']
      simp only [hl]
      split <;> rfl
    · intro hc
      simp [hjl] at hc
  | cons c cs =>
    obtain ⟨j, hn, hj, hjo, hjl, hjb⟩ := hk.next_cons hp
    obtain ⟨j', hn', hj', hjo', hjl', hjb'⟩ := hk'.next_cons hp
    refine ⟨_, j, j', hn, hn', ⟨cs, hj, hj'⟩, by omega, by rw [hjl, hjl'], ?_⟩
    exact fun _ ↦ ⟨by omega, c, hjb, hjb'⟩

theorem AgreeBy.next (hp : Source.Forecast p) (h : k.AgreeBy p distance k') :
    Lockstep (Error.shiftOr distance id) (AgreeBy p distance) k.next k'.next :=
  h.level.next hp

theorem AgreeBy.back (h : k.AgreeBy p distance k') :
    Lockstep (Error.shiftOr distance id) (AgreeBy p distance) k.back k'.back := by
  have ⟨⟨cs, ⟨rest, hs, hc, he⟩, ⟨rest', hs', hc', he'⟩⟩, ho, hl, hb⟩ := h
  cases hk : k.last with
  | nothing =>
    have hk' : k'.last = .nothing := hl.trans hk
    exact ⟨_, k, k', by rw [Cursor.back, hk], by rw [Cursor.back, hk']; rfl, h⟩
  | pushedBack =>
    have hk' : k'.last = .pushedBack := hl.trans hk
    exact ⟨_, k, k', by rw [Cursor.back, hk], by rw [Cursor.back, hk']; rfl, h⟩
  | endOfInput =>
    have hk' : k'.last = .endOfInput := hl.trans hk
    refine ⟨.ok (), _, _, by rw [Cursor.back, hk], by rw [Cursor.back, hk']; rfl, ?_⟩
    exact ⟨⟨cs, ⟨rest, hs, hc, he⟩, ⟨rest', hs', hc', he'⟩⟩, ho, rfl, fun hn ↦ nomatch hn⟩
  | character =>
    have hk' : k'.last = .character := hl.trans hk
    obtain ⟨hpos, c, hb, hb'⟩ := hb hk
    refine ⟨.ok (), _, _, by rw [Cursor.back, hk], by rw [Cursor.back, hk']; rfl, ?_⟩
    refine ⟨⟨c :: cs, ⟨rest, hs, ?_, he⟩, ⟨rest', hs', ?_, he'⟩⟩, ?_, rfl, fun hn ↦ nomatch hn⟩
    · simp [List.take_one, hb, hc]
    · simp [List.take_one, hb', hc']
    · simp only [ho]
      omega

theorem AgreeBy.peek (hp : Source.Forecast p) (n : Nat) (h : k.AgreeBy p distance k') :
    Lockstep (Error.shiftOr distance id) (AgreeBy p distance) (k.peek n) (k'.peek n) := by
  obtain ⟨⟨cs, hk, hk'⟩, ho, hl, hb⟩ := h
  obtain ⟨j, hj, hh, hjo, hjl, hjb⟩ := hk.peek hp n
  obtain ⟨j', hj', hh', hjo', hjl', hjb'⟩ := hk'.peek hp n
  refine ⟨_, j, j', hj, hj', ⟨cs, hh, hh'⟩, by rw [hjo, hjo', ho], by rw [hjl, hjl', hl], ?_⟩
  rw [hjl, hjo, hjb, hjb']
  exact hb

end AgreeBy

abbrev Agree (distance : Nat) : Cursor → Cursor → Prop := AgreeBy Source.Holds distance

end Cursor

def Remainder.Holds (a : Remainder) (cs : List Char) : Prop :=
  ∃ rest, a.source.Holds rest ∧ a.leftover ++ rest = cs

theorem Cursor.holds_ofRemainder {a : Remainder} {cs : List Char} (h : a.Holds cs)
    (capacity : Nat) : (Cursor.ofRemainder capacity a).Holds cs := by
  obtain ⟨rest, hr, hc⟩ := h
  exact ⟨rest, hr, hc, by simp [Cursor.ofRemainder]⟩

structure Remainder.Agree (a b : Remainder) : Prop where
  holds : ∃ cs, a.Holds cs ∧ b.Holds cs
  offset : a.offset = b.offset

end Edi
