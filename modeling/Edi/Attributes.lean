namespace Edi

/-- Named texts in the order of their first insertion. -/
structure Attributes where
  entries : List (String × String) := []
  nodup : (entries.map Prod.fst).Nodup := by simp
  deriving DecidableEq, Repr

namespace Attributes

def insertEntry (name value : String) : List (String × String) → List (String × String)
  | [] => [(name, value)]
  | e :: es => if e.1 = name then (name, value) :: es else e :: insertEntry name value es

theorem mem_insertEntry {name value x : String} {es : List (String × String)} :
    x ∈ (insertEntry name value es).map Prod.fst ↔ x = name ∨ x ∈ es.map Prod.fst := by
  induction es with
  | nil => simp [insertEntry]
  | cons e es ih =>
    simp only [insertEntry]
    split
    · next h => simp [h]
    · simp only [List.map_cons, List.mem_cons, ih]
      exact or_left_comm

theorem insertEntry_nodup {name value : String} {es : List (String × String)}
    (h : (es.map Prod.fst).Nodup) : ((insertEntry name value es).map Prod.fst).Nodup := by
  induction es with
  | nil => simp [insertEntry]
  | cons e es ih =>
    simp only [List.map_cons, List.nodup_cons] at h
    simp only [insertEntry]
    split
    · next he => simpa [List.nodup_cons, ← he] using h
    · next he =>
      simp only [List.map_cons, List.nodup_cons, mem_insertEntry]
      exact ⟨fun hm ↦ hm.elim he h.1, ih h.2⟩

def empty : Attributes := {}

def insert (name value : String) (a : Attributes) : Attributes :=
  ⟨insertEntry name value a.entries, insertEntry_nodup a.nodup⟩

def insertNonempty (name value : String) (a : Attributes) : Attributes :=
  if value.isEmpty then a else a.insert name value

def extend (es : List (String × String)) (a : Attributes) : Attributes :=
  es.foldl (fun a e ↦ a.insert e.1 e.2) a

def extendNonempty (es : List (String × String)) (a : Attributes) : Attributes :=
  es.foldl (fun a e ↦ a.insertNonempty e.1 e.2) a

def ofList (es : List (String × String)) : Attributes := empty.extend es

def get? (a : Attributes) (name : String) : Option String := a.entries.lookup name

def names (a : Attributes) : List String := a.entries.map Prod.fst

def size (a : Attributes) : Nat := a.entries.length

def isEmpty (a : Attributes) : Bool := a.entries.isEmpty

end Attributes

end Edi
