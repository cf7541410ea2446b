import Edi.Segment.Recognizer
import Mathlib.Data.List.Forall2

namespace Edi

namespace Text

/-- `ds` is what is left of `cs` without the characters satisfying `p` at either end. -/
structure Stripped (p : Char → Bool) (cs ds : List Char) : Prop where
  around : ∃ before after, cs = before ++ ds ++ after ∧ (∀ c ∈ before, p c) ∧ ∀ c ∈ after, p c
  head : ∀ c ∈ ds.head?, p c = false
  last : ∀ c ∈ ds.getLast?, p c = false

/-- `ds` is what is left of `cs` without the spaces and tabs at either end. -/
def Unpadded : List Char → List Char → Prop := Stripped (· ∈ [' ', '\t'])

variable {p : Char → Bool}

theorem exists_append_dropWhile (p : Char → Bool) (cs : List Char) :
    ∃ before, cs = before ++ cs.dropWhile p ∧ ∀ c ∈ before, p c :=
  ⟨cs.takeWhile p, List.takeWhile_append_dropWhile.symm,
    fun c hc ↦ List.all_eq_true.1 List.all_takeWhile c hc⟩

theorem head_dropWhile (cs : List Char) {c : Char} (h : c ∈ (cs.dropWhile p).head?) :
    p c = false := by
  have hn := List.head?_dropWhile_not p cs
  rw [Option.mem_def] at h
  simpa [h] using hn

theorem strip_stripped (p : Char → Bool) (cs : List Char) : Stripped p cs (strip p cs) := by
  obtain ⟨before, hb, hbefore⟩ := exists_append_dropWhile p cs
  obtain ⟨behind, ha, hbehind⟩ := exists_append_dropWhile p (cs.dropWhile p).reverse
  have hd : cs.dropWhile p = strip p cs ++ behind.reverse := by
    rw [← List.reverse_reverse (cs.dropWhile p), ha, List.reverse_append]
    simp [strip]
  refine ⟨⟨before, behind.reverse, ?_, hbefore, by simpa using hbehind⟩, ?_, ?_⟩
  · rw [List.append_assoc, ← hd, ← hb]
  · intro c hc
    refine head_dropWhile cs ?_
    rw [hd, List.head?_append, Option.mem_def.1 hc]
    rfl
  · intro c hc
    refine head_dropWhile (cs.dropWhile p).reverse ?_
    simpa [strip] using hc

theorem strip_unpadded (cs : List Char) : Unpadded cs (strip isPadding cs) := by
  have hp : isPadding = fun c ↦ decide (c ∈ [' ', '\t']) := by
    funext c
    rw [Bool.eq_iff_iff]
    simp [isPadding]
  rw [hp]
  exact strip_stripped _ cs

end Text

/-- Each leaf of the second value is that of the first without the padding around it. -/
inductive Value.TrimsTo : Value → Value → Prop
  | simple {a b : String} (h : Text.Unpadded a.toList b.toList) : TrimsTo (.simple a) (.simple b)
  | composite {parts parts' : List (List String)}
      (h : List.Forall₂ (List.Forall₂ fun a b ↦ Text.Unpadded a.toList b.toList) parts parts') :
      TrimsTo (.composite parts) (.composite parts')

structure Field.TrimsTo (f g : Field) : Prop where
  position : g.position = f.position
  repeats : g.repeats = f.repeats
  span : g.span = f.span
  value : f.value.TrimsTo g.value

structure Segment.TrimsTo (s s' : Segment) : Prop where
  tag : s'.tag = s.tag
  span : s'.span = s.span
  fields : List.Forall₂ Field.TrimsTo s.fields s'.fields

def Value.mapLeaves (f : String → String) : Value → Value
  | simple text => simple (f text)
  | composite parts => composite (parts.map (·.map f))

def Field.trimmed (trims : Bool) (f : Field) : Field :=
  { f with value := f.value.mapLeaves fun text ↦ Occurrence.leafText trims text.toList }

def Segment.trimmed (trims : Bool) (s : Segment) : Segment :=
  { s with fields := s.fields.map (·.trimmed trims) }

@[simp] theorem Occurrence.leafText_toList (text : String) : leafText false text.toList = text :=
  String.ofList_toList

theorem Occurrence.leafText_unpadded (cs : List Char) :
    Text.Unpadded cs (leafText true cs).toList := by
  simpa [leafText] using Text.strip_unpadded cs

@[simp] theorem Value.mapLeaves_id (v : Value) : v.mapLeaves (fun text ↦ text) = v := by
  cases v <;> simp [mapLeaves]

theorem Segment.trimmed_false (s : Segment) : s.trimmed false = s := by
  have hf : (Field.trimmed false) = id := by
    funext f
    simp [Field.trimmed]
  simp [trimmed, hf]

theorem Value.mapLeaves_trimsTo (v : Value) :
    v.TrimsTo (v.mapLeaves fun text ↦ Occurrence.leafText true text.toList) := by
  cases v with
  | simple text => exact .simple (Occurrence.leafText_unpadded _)
  | composite parts =>
    refine .composite (List.forall₂_map_right_iff.2 (List.forall₂_same.2 fun part _ ↦ ?_))
    exact List.forall₂_map_right_iff.2
      (List.forall₂_same.2 fun text _ ↦ Occurrence.leafText_unpadded _)

theorem Segment.trimmed_trimsTo (s : Segment) : s.TrimsTo (s.trimmed true) := by
  refine ⟨rfl, rfl, List.forall₂_map_right_iff.2 (List.forall₂_same.2 fun f _ ↦ ?_)⟩
  exact ⟨rfl, rfl, rfl, f.value.mapLeaves_trimsTo⟩

namespace Occurrence

theorem value_trimmed (trims : Bool) (o : Occurrence) :
    o.value trims = (o.value false).mapLeaves fun text ↦ leafText trims text.toList := by
  have hl : (fun text : String ↦ leafText trims text.toList) ∘ leafText false = leafText trims := by
    funext cs
    simp [leafText]
  simp only [value]
  split
  · simp [Value.mapLeaves, hl]
  · simp [Value.mapLeaves, leafText]

end Occurrence

namespace Segment

def Body.trimmed (trims : Bool) (b : Body) : Body :=
  { b with fields := b.fields.map (·.trimmed trims) }

def Part.trimmed (trims : Bool) : Part → Part
  | tag letters => tag letters
  | body b => body (b.trimmed trims)

variable {trims : Bool}

theorem Body.trimmed_endOccurrence (stop : Nat) (repeats : Bool) (b : Body) :
    (b.trimmed trims).endOccurrence trims stop repeats =
      (b.endOccurrence false stop repeats).trimmed trims := by
  have hp : (b.trimmed trims).position = b.position := by
    simp [position, trimmed, Field.trimmed, Function.comp_def]
  simp only [endOccurrence, hp]
  simp [trimmed, Field.trimmed, b.current.value_trimmed trims]

end Segment

def Verdict.map {σ τ α : Type} (f : σ → τ) (g : α → α) : Verdict σ α → Verdict τ α
  | more s => more (f s)
  | take answer => take (answer.map g)
  | leave answer => leave (answer.map g)

namespace Segment

variable (d : Delimiters) (trims : Bool) (maxLength start : Nat)

/-- Trimming has no say in a verdict. -/
theorem recognizer_feed_trimmed (p : Part) (offset : Nat) (c : Char) (k : CharClass) :
    (recognizer d trims maxLength start).feed (p.trimmed trims) offset c k =
      ((recognizer d false maxLength start).feed p offset c k).map (·.trimmed trims)
        (·.trimmed trims) := by
  cases p with
  | tag letters =>
    simp only [recognizer, Part.trimmed]
    repeat' split
    all_goals rfl
  | body b =>
    have hc : (b.trimmed trims).current = b.current := rfl
    simp only [recognizer, Part.trimmed, hc, Body.trimmed_endOccurrence]
    split
    · split <;> rfl
    · simp [Verdict.map, Except.map, Segment.trimmed, Body.trimmed]
    · rfl

theorem recognizer_finish_trimmed (p : Part) (offset : Nat) :
    (recognizer d trims maxLength start).finish (p.trimmed trims) offset =
      ((recognizer d false maxLength start).finish p offset).map id (·.trimmed trims) := by
  cases p with
  | tag letters => rfl
  | body b =>
    have hc : (b.trimmed trims).current = b.current := rfl
    simp only [recognizer, Part.trimmed, hc]
    split <;> rfl

end Segment

end Edi
