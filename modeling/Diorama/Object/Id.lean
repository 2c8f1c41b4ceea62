/-
  Object ids.

  Objects of a scene stand in an arena and refer to each other by their place in it, a word of 32
  bits.  Two references that hold the same id share one object.
-/

namespace Diorama

/-- The place of an object in the arena of its scene. -/
structure ObjectId where
  word : UInt32
deriving DecidableEq

namespace ObjectId

/-- The place as a number. -/
def index (id : ObjectId) : Nat := id.word.toNat

/-- The id of the place with a number. -/
def ofIndex (n : Nat) : ObjectId := ⟨.ofNat n⟩

/-- An id as messages name it. -/
def text (id : ObjectId) : String := "#" ++ id.index.repr

theorem index_injective {a b : ObjectId} (h : a.index = b.index) : a = b := by
  cases a; cases b
  simp only [index] at h
  exact congrArg ObjectId.mk (UInt32.toNat_inj.mp h)

theorem index_ofIndex {n : Nat} (h : n < UInt32.size) : (ofIndex n).index = n := by
  simp only [index, ofIndex, UInt32.toNat_ofNat']
  exact Nat.mod_eq_of_lt h

@[simp] theorem ofIndex_index (id : ObjectId) : ofIndex id.index = id := by
  simp [index, ofIndex]

end ObjectId
end Diorama
