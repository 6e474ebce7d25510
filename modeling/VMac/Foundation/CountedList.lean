/-
A format that announces a number of items and then gives them one after another.

A reader of such a format may handle each item before it reads the next one.  Where all the items
are there, this is the same as reading the list first and folding the handler over it.
-/
import Mathlib.Data.List.Basic

set_option autoImplicit false

namespace CountedList

variable {Item Source State Failure : Type}

/-- Each item is read from what the one before it has left. -/
def readMany (read : Source → Except Failure (Item × Source)) :
    Nat → Source → Except Failure (List Item)
  | 0, _ => .ok []
  | count + 1, source => do
      let (item, rest) ← read source
      let items ← readMany read count rest
      return item :: items

/-- Each item is handled before the next one is read. -/
def handleMany (read : Source → Except Failure (Item × Source))
    (handle : State → Item → Except Failure State) :
    Nat → Source → State → Except Failure State
  | 0, _, state => .ok state
  | count + 1, source, state => do
      let (item, rest) ← read source
      let next ← handle state item
      handleMany read handle count rest next

variable {read : Source → Except Failure (Item × Source)}

/-- What a writer put down is read again, whatever the items are. -/
theorem readMany_written (write : List Item → Source)
    (reads : ∀ item items, read (write (item :: items)) = .ok (item, write items))
    (items : List Item) : readMany read items.length (write items) = .ok items := by
  induction items with
  | nil => rfl
  | cons item rest ih =>
      simp only [List.length_cons, readMany, reads]
      change (readMany read rest.length (write rest) >>= fun items => .ok (item :: items)) = _
      rw [ih]
      rfl

theorem handleMany_of_readMany (handle : State → Item → Except Failure State) {count : Nat}
    {source : Source} {items : List Item} (complete : readMany read count source = .ok items)
    (state : State) : handleMany read handle count source state = items.foldlM handle state := by
  induction count generalizing source items state with
  | zero =>
      cases complete
      rfl
  | succ count ih =>
      unfold readMany at complete
      unfold handleMany
      cases first : read source with
      | error failure =>
          rw [first] at complete
          cases complete
      | ok result =>
          obtain ⟨item, rest⟩ := result
          rw [first] at complete
          change (readMany read count rest >>= fun items => .ok (item :: items)) = _ at complete
          cases later : readMany read count rest with
          | error failure =>
              rw [later] at complete
              cases complete
          | ok others =>
              rw [later] at complete
              cases complete
              change (handle state item >>= fun next => handleMany read handle count rest next) = _
              rw [List.foldlM_cons]
              cases handle state item with
              | error failure => rfl
              | ok next => exact ih later next

end CountedList
