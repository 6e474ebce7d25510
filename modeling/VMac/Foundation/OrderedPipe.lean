/-
Pipes that keep the order.

What was inside and what was put in comes out in the same order, and what has not come out is
inside.  Pipes are joined end to end, and part of what goes through may be looked at alone.
-/
set_option autoImplicit false

namespace OrderedPipe

variable {Item : Type} {inside puts gets after : List Item}

def Flows (inside puts gets after : List Item) : Prop := inside ++ puts = gets ++ after

theorem Flows.still (inside : List Item) : Flows inside [] [] inside :=
  List.append_nil inside

theorem Flows.put (inside puts : List Item) : Flows inside puts [] (inside ++ puts) :=
  rfl

theorem Flows.get (gets after : List Item) : Flows (gets ++ after) [] gets after :=
  List.append_nil _

/-- What comes out of one pipe goes into the next one. -/
theorem Flows.joined {middle far beyond : List Item} (near : Flows inside puts middle after)
    (next : Flows far middle gets beyond) : Flows (far ++ inside) puts gets (beyond ++ after) := by
  unfold Flows at near next ⊢
  rw [List.append_assoc, near, ← List.append_assoc, next, List.append_assoc]

theorem Flows.filter (wanted : Item → Bool) (flows : Flows inside puts gets after) :
    Flows (inside.filter wanted) (puts.filter wanted) (gets.filter wanted)
      (after.filter wanted) := by
  unfold Flows at flows ⊢
  rw [← List.filter_append, flows, List.filter_append]

end OrderedPipe
