import StaticInit.Script.Object

/-!
# The store of a script

Objects by name. All that is asked of it is which object a name stands for
(`get?`), before and after one is put in (`get?_insert`).
-/

namespace StaticInit.Script

structure Store where
  entries : List (String × Object) := []

namespace Store

def empty : Store := {}

def get? (s : Store) (name : String) : Option Object := s.entries.lookup name

/-- Puts an object in, in place of any other of that name. -/
def insert (s : Store) (name : String) (o : Object) : Store :=
  ⟨(name, o) :: s.entries.filter (fun e => e.1 != name)⟩

/-- Puts several objects in, one after another. -/
def insertAll (s : Store) (changes : List (String × Object)) : Store :=
  changes.foldl (fun s c => s.insert c.1 c.2) s

@[simp] theorem get?_empty (name : String) : empty.get? name = none := rfl

private theorem lookup_filter_ne {n m : String} (h : m ≠ n) (es : List (String × Object)) :
    (es.filter (fun e => e.1 != n)).lookup m = es.lookup m := by
  induction es with
  | nil => rfl
  | cons e es ih =>
    obtain ⟨k, o⟩ := e
    by_cases hn : k = n
    · have hm : (m == k) = false := by simpa [hn] using h
      simp [hn ▸ hm, hn, List.lookup_cons, ih]
    · simp [hn, List.lookup_cons, ih]

theorem get?_insert (s : Store) (n m : String) (o : Object) :
    (s.insert n o).get? m = if m = n then some o else s.get? m := by
  by_cases h : m = n
  · simp [get?, insert, h]
  · have hm : (m == n) = false := by simpa using h
    simp [get?, insert, List.lookup_cons, hm, h, lookup_filter_ne h]

@[simp] theorem insertAll_nil (s : Store) : s.insertAll [] = s := rfl

@[simp] theorem insertAll_cons (s : Store) (c : String × Object) (cs : List (String × Object)) :
    s.insertAll (c :: cs) = (s.insert c.1 c.2).insertAll cs := rfl

end Store

end StaticInit.Script
