/-
A ledger of buffers that are stored in slots, used through them and released.

A ledger is sound when a buffer enters it once, and is used or released only through a slot in
which it was stored and only before its release.  In a sound ledger nothing is released twice.
-/
import Mathlib.Data.List.Induction
import Mathlib.Data.List.Nodup
import Mathlib.Tactic.Common

set_option autoImplicit false

namespace BufferLedger

variable {Slot Buffer : Type}

inductive Entry (Slot Buffer : Type)
  | store (slot : Slot) (buffer : Buffer)
  | use (slot : Slot) (buffer : Buffer)
  | release (slot : Slot) (buffer : Buffer)
deriving DecidableEq

def Held (log : List (Entry Slot Buffer)) (slot : Slot) (buffer : Buffer) : Prop :=
  .store slot buffer ∈ log ∧ ∀ other, .release other buffer ∉ log

def Entry.Justified (log : List (Entry Slot Buffer)) : Entry Slot Buffer → Prop
  | .store _ buffer => ∀ other, .store other buffer ∉ log
  | .use slot buffer => Held log slot buffer
  | .release slot buffer => Held log slot buffer

def Sound (log : List (Entry Slot Buffer)) : Prop :=
  ∀ front entry back, log = front ++ entry :: back → entry.Justified front

def releases (log : List (Entry Slot Buffer)) : List Buffer :=
  log.filterMap (fun entry =>
    match entry with
    | .release _ buffer => some buffer
    | _ => none)

def stores (log : List (Entry Slot Buffer)) : List Buffer :=
  log.filterMap (fun entry =>
    match entry with
    | .store _ buffer => some buffer
    | _ => none)

theorem releases_append (before after : List (Entry Slot Buffer)) :
    releases (before ++ after) = releases before ++ releases after :=
  List.filterMap_append

theorem stores_append (before after : List (Entry Slot Buffer)) :
    stores (before ++ after) = stores before ++ stores after :=
  List.filterMap_append

theorem sound_nil : Sound ([] : List (Entry Slot Buffer)) := by
  intro front entry back impossible
  simp at impossible

theorem sound_snoc_iff (log : List (Entry Slot Buffer)) (entry : Entry Slot Buffer) :
    Sound (log ++ [entry]) ↔ Sound log ∧ entry.Justified log := by
  constructor
  · intro sound
    refine ⟨?_, sound log entry [] rfl⟩
    intro front other back split
    apply sound front other (back ++ [entry])
    rw [split, List.append_assoc, List.cons_append]
  · rintro ⟨sound, justified⟩ front other back split
    rcases List.eq_nil_or_concat back with rfl | ⟨shorter, final, rfl⟩
    · obtain ⟨same, ends⟩ := List.append_inj' split rfl
      rw [← same, ← (List.cons.inj ends).1]
      exact justified
    · rw [List.concat_eq_append, ← List.cons_append, ← List.append_assoc] at split
      obtain ⟨same, _⟩ := List.append_inj' split rfl
      exact sound front other shorter same

theorem Held.snoc {log : List (Entry Slot Buffer)} {slot : Slot} {buffer : Buffer}
    (held : Held log slot buffer) {entry : Entry Slot Buffer}
    (other : ∀ place, entry ≠ .release place buffer) : Held (log ++ [entry]) slot buffer := by
  refine ⟨List.mem_append_left _ held.1, ?_⟩
  intro place member
  rcases List.mem_append.mp member with old | new
  · exact held.2 place old
  · exact other place (List.mem_singleton.mp new).symm

theorem Sound.held_store {log : List (Entry Slot Buffer)} {slot : Slot} {buffer : Buffer}
    (sound : Sound log) (fresh : ∀ other, Entry.store other buffer ∉ log) :
    Held (log ++ [.store slot buffer]) slot buffer := by
  refine ⟨List.mem_append_right _ (List.mem_singleton.mpr rfl), ?_⟩
  intro place member
  rcases List.mem_append.mp member with old | new
  · obtain ⟨front, back, rfl⟩ := List.append_of_mem old
    have justified : Held front place buffer := sound front _ back rfl
    exact fresh place (List.mem_append_left _ justified.1)
  · cases List.mem_singleton.mp new

theorem Sound.store_unique {log : List (Entry Slot Buffer)} (sound : Sound log)
    {left right : Slot} {buffer : Buffer} (first : .store left buffer ∈ log)
    (second : .store right buffer ∈ log) : left = right := by
  induction log using List.reverseRecOn with
  | nil => cases first
  | append_singleton log entry ih =>
      obtain ⟨before, justified⟩ := (sound_snoc_iff log entry).mp sound
      rcases List.mem_append.mp first with firstOld | firstNew
      · rcases List.mem_append.mp second with secondOld | secondNew
        · exact ih before firstOld secondOld
        · rw [← List.mem_singleton.mp secondNew] at justified
          exact absurd firstOld (justified left)
      · rw [← List.mem_singleton.mp firstNew] at justified
        rcases List.mem_append.mp second with secondOld | secondNew
        · exact absurd secondOld (justified right)
        · have same := (List.mem_singleton.mp firstNew).trans (List.mem_singleton.mp secondNew).symm
          cases same
          rfl

theorem Sound.releases_nodup {log : List (Entry Slot Buffer)} (sound : Sound log) :
    (releases log).Nodup := by
  induction log using List.reverseRecOn with
  | nil => exact List.nodup_nil
  | append_singleton log entry ih =>
      obtain ⟨before, justified⟩ := (sound_snoc_iff log entry).mp sound
      have earlier := ih before
      unfold releases at earlier ⊢
      rw [List.filterMap_append]
      cases entry with
      | store slot buffer =>
          rw [show List.filterMap _ [Entry.store slot buffer] = [] from rfl, List.append_nil]
          exact earlier
      | use slot buffer =>
          rw [show List.filterMap _ [Entry.use slot buffer] = [] from rfl, List.append_nil]
          exact earlier
      | release slot buffer =>
          rw [show List.filterMap _ [Entry.release slot buffer] = [buffer] from rfl]
          apply List.Nodup.append earlier (List.nodup_singleton buffer)
          intro other member same
          rw [List.mem_singleton.mp same] at member
          obtain ⟨old, present, isRelease⟩ := List.mem_filterMap.mp member
          cases old with
          | store place kept => cases isRelease
          | use place kept => cases isRelease
          | release place kept =>
              cases isRelease
              exact justified.2 place present

/-- Buffers held in different slots can be released one after another. -/
theorem Sound.release_all {log : List (Entry Slot Buffer)} (sound : Sound log)
    (items : List (Slot × Buffer)) (different : (items.map Prod.fst).Nodup)
    (held : ∀ item ∈ items, Held log item.1 item.2) :
    Sound (log ++ items.map (fun item => .release item.1 item.2)) := by
  induction items generalizing log with
  | nil =>
      rw [List.map_nil, List.append_nil]
      exact sound
  | cons item rest ih =>
      obtain ⟨slot, buffer⟩ := item
      have heldFirst : Held log slot buffer := held (slot, buffer) List.mem_cons_self
      rw [List.map_cons, List.nodup_cons] at different
      rw [List.map_cons, List.append_cons]
      have extended : Sound (log ++ [Entry.release slot buffer]) :=
        (sound_snoc_iff log (.release slot buffer)).mpr ⟨sound, heldFirst⟩
      apply ih extended different.2
      intro later member
      have heldLater := held later (List.mem_cons_of_mem _ member)
      apply heldLater.snoc
      intro place same
      cases same
      -- one buffer cannot sit in two slots
      have sameSlot := sound.store_unique heldFirst.1 heldLater.1
      exact different.1 (List.mem_map.mpr ⟨later, member, sameSlot.symm⟩)

end BufferLedger
