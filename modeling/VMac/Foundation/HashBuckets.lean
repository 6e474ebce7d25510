/-
Tables of buckets in which a lookup walks a whole bucket and keeps the last entry.

A lookup, an insertion at the head, a removal of what the lookup found and a write through what
it found all stay within one bucket.  When entries are added only to empty buckets, a bucket
never holds more than one.
-/
import Mathlib.Logic.Function.Basic
import Mathlib.Data.List.Basic

set_option autoImplicit false

abbrev Buckets (Index Entry : Type) := Index → List Entry

namespace HashBuckets

variable {Index Entry : Type}

def empty : Buckets Index Entry := fun _ => []

/-- The entry at which a walk of the bucket ends. -/
def find (table : Buckets Index Entry) (index : Index) : Option Entry :=
  (table index).getLast?

theorem find_congr {left right : Buckets Index Entry} {index : Index}
    (same : left index = right index) : find left index = find right index :=
  congrArg List.getLast? same

theorem find_eq_none_iff (table : Buckets Index Entry) (index : Index) :
    find table index = none ↔ table index = [] :=
  List.getLast?_eq_none_iff

def AtMostOne (table : Buckets Index Entry) : Prop := ∀ index, (table index).length ≤ 1

def Everywhere (property : Index → Entry → Prop) (table : Buckets Index Entry) : Prop :=
  ∀ index, ∀ entry ∈ table index, property index entry

theorem atMostOne_empty : AtMostOne (empty : Buckets Index Entry) :=
  fun _ => Nat.zero_le 1

theorem AtMostOne.bucket_eq {table : Buckets Index Entry} (single : AtMostOne table)
    (index : Index) : table index = (find table index).toList := by
  have short := single index
  unfold find
  rcases content : table index with _ | ⟨entry, _ | ⟨second, rest⟩⟩
  · rfl
  · rfl
  · rw [content] at short
    simp only [List.length_cons] at short
    omega

variable {property : Index → Entry → Prop}

theorem everywhere_empty : Everywhere property (empty : Buckets Index Entry) := by
  intro index entry impossible
  cases impossible

theorem Everywhere.find {table : Buckets Index Entry} (all : Everywhere property table)
    {index : Index} {entry : Entry} (found : find table index = some entry) :
    property index entry :=
  all index entry (List.mem_of_getLast? found)

/-- An entry of the bucket that is known by a mark of its own, and not by a lookup. -/
def holder (table : Buckets Index Entry) (index : Index) (mine : Entry → Bool) : Option Entry :=
  (table index).find? mine

theorem holder_congr {left right : Buckets Index Entry} {index : Index} (mine : Entry → Bool)
    (same : left index = right index) : holder left index mine = holder right index mine :=
  congrArg (List.find? mine) same

theorem holder_marked {table : Buckets Index Entry} {index : Index} {mine : Entry → Bool}
    {entry : Entry} (held : holder table index mine = some entry) : mine entry = true :=
  List.find?_some held

theorem AtMostOne.eq_of_mem {table : Buckets Index Entry} (single : AtMostOne table)
    {index : Index} {entry : Entry} (member : entry ∈ table index) : table index = [entry] := by
  have short := single index
  rcases content : table index with _ | ⟨first, _ | ⟨second, rest⟩⟩
  · rw [content] at member
    cases member
  · rw [content] at member
    rw [List.mem_singleton.mp member]
  · rw [content] at short
    simp only [List.length_cons] at short
    omega

theorem AtMostOne.find_of_mem {table : Buckets Index Entry} (single : AtMostOne table)
    {index : Index} {entry : Entry} (member : entry ∈ table index) :
    find table index = some entry := by
  unfold find
  rw [single.eq_of_mem member]
  rfl

theorem AtMostOne.eq_singleton {table : Buckets Index Entry} (single : AtMostOne table)
    {index : Index} {mine : Entry → Bool} {entry : Entry}
    (held : holder table index mine = some entry) : table index = [entry] :=
  single.eq_of_mem (List.mem_of_find?_eq_some held)

theorem AtMostOne.holder_eq {table : Buckets Index Entry} (single : AtMostOne table)
    {index : Index} {entry : Entry} (member : entry ∈ table index) {mine : Entry → Bool}
    (marked : mine entry = true) : holder table index mine = some entry := by
  unfold holder
  rw [single.eq_of_mem member, List.find?_singleton, if_pos marked]

theorem AtMostOne.find_eq {table : Buckets Index Entry} (single : AtMostOne table)
    {index : Index} {mine : Entry → Bool} {entry : Entry}
    (held : holder table index mine = some entry) : find table index = some entry := by
  unfold find
  rw [single.eq_singleton held]
  rfl

/-! ### Lookups by key -/

structure Follows (table : Buckets Index Entry) (index : Index) (asked : Entry → Prop) : Prop where
  present : ∀ other, ∀ entry ∈ table other, asked entry →
    ∃ found, find table index = some found ∧ asked found
  absent : (∀ other, ∀ entry ∈ table other, ¬ asked entry) → find table index = none

/-- A lookup that walks over one bucket and compares no keys keeps the promise exactly when the
bucket holds nothing else. -/
theorem AtMostOne.follows_iff {table : Buckets Index Entry} (single : AtMostOne table)
    {index : Index} {asked : Entry → Prop}
    (filed : ∀ other, ∀ entry ∈ table other, asked entry → other = index) :
    Follows table index asked ↔ ∀ entry ∈ table index, asked entry := by
  constructor
  · intro follows entry member
    have found := single.find_of_mem member
    by_contra other
    have missing : find table index = none := by
      apply follows.absent
      intro place held among wanted
      obtain ⟨answer, answered, fits⟩ := follows.present place held among wanted
      rw [found] at answered
      cases answered
      exact other fits
    rw [found] at missing
    cases missing
  · intro only
    constructor
    case present =>
      intro place entry member wanted
      rw [filed place entry member wanted] at member
      exact ⟨entry, single.find_of_mem member, wanted⟩
    case absent =>
      intro nowhere
      rw [find_eq_none_iff]
      apply List.eq_nil_iff_forall_not_mem.mpr
      intro entry member
      exact nowhere index entry member (only entry member)

variable [DecidableEq Index]

def add (table : Buckets Index Entry) (index : Index) (entry : Entry) : Buckets Index Entry :=
  Function.update table index (entry :: table index)

def del (table : Buckets Index Entry) (index : Index) : Buckets Index Entry :=
  Function.update table index (table index).dropLast

def write (table : Buckets Index Entry) (index : Index) (entry : Entry) :
    Buckets Index Entry :=
  Function.update table index ((table index).dropLast ++ [entry])

def rewrite (table : Buckets Index Entry) (index : Index) (mine : Entry → Bool)
    (entry : Entry) : Buckets Index Entry :=
  Function.update table index
    ((table index).map (fun other => if mine other then entry else other))

/-! ### Other buckets -/

@[simp] theorem add_of_ne (table : Buckets Index Entry) {index other : Index} (entry : Entry)
    (different : other ≠ index) : add table index entry other = table other :=
  Function.update_of_ne different _ _

@[simp] theorem del_of_ne (table : Buckets Index Entry) {index other : Index}
    (different : other ≠ index) : del table index other = table other :=
  Function.update_of_ne different _ _

@[simp] theorem write_of_ne (table : Buckets Index Entry) {index other : Index} (entry : Entry)
    (different : other ≠ index) : write table index entry other = table other :=
  Function.update_of_ne different _ _

@[simp] theorem rewrite_of_ne (table : Buckets Index Entry) {index other : Index}
    (mine : Entry → Bool) (entry : Entry) (different : other ≠ index) :
    rewrite table index mine entry other = table other :=
  Function.update_of_ne different _ _

/-! ### The bucket itself -/

theorem add_congr {left right : Buckets Index Entry} {index : Index} (entry : Entry)
    (same : left index = right index) :
    add left index entry index = add right index entry index := by
  unfold add
  rw [Function.update_self, Function.update_self, same]

theorem del_congr {left right : Buckets Index Entry} {index : Index}
    (same : left index = right index) : del left index index = del right index index := by
  unfold del
  rw [Function.update_self, Function.update_self, same]

theorem write_congr {left right : Buckets Index Entry} {index : Index} (entry : Entry)
    (same : left index = right index) :
    write left index entry index = write right index entry index := by
  unfold write
  rw [Function.update_self, Function.update_self, same]

theorem rewrite_congr {left right : Buckets Index Entry} {index : Index}
    (mine : Entry → Bool) (entry : Entry) (same : left index = right index) :
    rewrite left index mine entry index = rewrite right index mine entry index := by
  unfold rewrite
  rw [Function.update_self, Function.update_self, same]

@[simp] theorem find_write (table : Buckets Index Entry) (index : Index) (entry : Entry) :
    find (write table index entry) index = some entry := by
  unfold find write
  rw [Function.update_self, List.getLast?_concat]

theorem find_add (table : Buckets Index Entry) (index : Index) (entry : Entry)
    (vacant : find table index = none) : find (add table index entry) index = some entry := by
  unfold find add
  rw [Function.update_self, (find_eq_none_iff table index).mp vacant]
  rfl

/-! ### At most one entry to a bucket -/

theorem AtMostOne.add {table : Buckets Index Entry} (single : AtMostOne table) {index : Index}
    (entry : Entry) (vacant : find table index = none) :
    AtMostOne (add table index entry) := by
  intro other
  by_cases same : other = index
  · subst same
    unfold HashBuckets.add
    rw [Function.update_self, (find_eq_none_iff table other).mp vacant]
    exact Nat.le_refl 1
  · rw [add_of_ne table entry same]
    exact single other

theorem AtMostOne.del {table : Buckets Index Entry} (single : AtMostOne table) (index : Index) :
    AtMostOne (del table index) := by
  intro other
  by_cases same : other = index
  · subst same
    unfold HashBuckets.del
    rw [Function.update_self, List.length_dropLast]
    exact Nat.le_trans (Nat.sub_le _ 1) (single other)
  · rw [del_of_ne table same]
    exact single other

theorem AtMostOne.write {table : Buckets Index Entry} (single : AtMostOne table)
    (index : Index) (entry : Entry) : AtMostOne (write table index entry) := by
  intro other
  by_cases same : other = index
  · subst same
    have short := single other
    unfold HashBuckets.write
    rw [Function.update_self, List.length_append, List.length_dropLast, List.length_singleton]
    omega
  · rw [write_of_ne table entry same]
    exact single other

theorem AtMostOne.rewrite {table : Buckets Index Entry} (single : AtMostOne table)
    (index : Index) (mine : Entry → Bool) (entry : Entry) :
    AtMostOne (rewrite table index mine entry) := by
  intro other
  by_cases same : other = index
  · subst same
    unfold HashBuckets.rewrite
    rw [Function.update_self, List.length_map]
    exact single other
  · rw [rewrite_of_ne table mine entry same]
    exact single other

theorem AtMostOne.rewrite_eq {table : Buckets Index Entry} (single : AtMostOne table)
    {index : Index} {mine : Entry → Bool} {old : Entry}
    (held : holder table index mine = some old) (new : Entry) :
    HashBuckets.rewrite table index mine new index = [new] := by
  unfold HashBuckets.rewrite
  rw [Function.update_self, single.eq_singleton held, List.map_singleton,
    if_pos (holder_marked held)]

theorem AtMostOne.find_rewrite {table : Buckets Index Entry} (single : AtMostOne table)
    {index : Index} {mine : Entry → Bool} {old : Entry}
    (held : holder table index mine = some old) (new : Entry) :
    find (HashBuckets.rewrite table index mine new) index = some new := by
  unfold find
  rw [single.rewrite_eq held]
  rfl

theorem AtMostOne.del_rewrite {table : Buckets Index Entry} (single : AtMostOne table)
    {index : Index} {mine : Entry → Bool} {old : Entry}
    (held : holder table index mine = some old) (new : Entry) :
    HashBuckets.del (HashBuckets.rewrite table index mine new) index =
      HashBuckets.del table index := by
  unfold HashBuckets.del
  rw [single.rewrite_eq held, single.eq_singleton held]
  unfold HashBuckets.rewrite
  rw [Function.update_idem]
  rfl

theorem AtMostOne.find_del {table : Buckets Index Entry} (single : AtMostOne table)
    (index : Index) : find (HashBuckets.del table index) index = none := by
  have short := single index
  rw [find_eq_none_iff]
  unfold HashBuckets.del
  rw [Function.update_self]
  apply List.eq_nil_of_length_eq_zero
  rw [List.length_dropLast]
  omega

/-! ### Properties of all entries -/

theorem Everywhere.add {table : Buckets Index Entry} (all : Everywhere property table)
    {index : Index} {entry : Entry} (new : property index entry) :
    Everywhere property (add table index entry) := by
  intro other found member
  by_cases same : other = index
  · subst same
    unfold HashBuckets.add at member
    rw [Function.update_self] at member
    rcases List.mem_cons.mp member with rfl | old
    · exact new
    · exact all other found old
  · rw [add_of_ne table entry same] at member
    exact all other found member

theorem Everywhere.del {table : Buckets Index Entry} (all : Everywhere property table)
    (index : Index) : Everywhere property (del table index) := by
  intro other found member
  by_cases same : other = index
  · subst same
    unfold HashBuckets.del at member
    rw [Function.update_self] at member
    exact all other found ((List.dropLast_sublist _).subset member)
  · rw [del_of_ne table same] at member
    exact all other found member

theorem Everywhere.write {table : Buckets Index Entry} (all : Everywhere property table)
    {index : Index} {entry : Entry} (new : property index entry) :
    Everywhere property (write table index entry) := by
  intro other found member
  by_cases same : other = index
  · subst same
    unfold HashBuckets.write at member
    rw [Function.update_self] at member
    rcases List.mem_append.mp member with old | last
    · exact all other found ((List.dropLast_sublist _).subset old)
    · rw [List.mem_singleton.mp last]
      exact new
  · rw [write_of_ne table entry same] at member
    exact all other found member

theorem Everywhere.rewrite {table : Buckets Index Entry} (all : Everywhere property table)
    {index : Index} (mine : Entry → Bool) {entry : Entry} (new : property index entry) :
    Everywhere property (rewrite table index mine entry) := by
  intro other found member
  by_cases same : other = index
  · subst same
    unfold HashBuckets.rewrite at member
    rw [Function.update_self] at member
    obtain ⟨old, among, became⟩ := List.mem_map.mp member
    split at became
    · rw [← became]
      exact new
    · rw [← became]
      exact all other old among
  · rw [rewrite_of_ne table mine entry same] at member
    exact all other found member

/-! ### Updates of one bucket -/

/-- An update at a bucket that removes nothing: an entry is added only where there is none and
only if it fits, and what is written over an entry is like the entry. -/
inductive Update (fits : Entry → Prop) (alike : Entry → Entry → Prop) (index : Index) :
    Buckets Index Entry → Buckets Index Entry → Prop
  | unchanged (table : Buckets Index Entry) : Update fits alike index table table
  | added {table : Buckets Index Entry} {entry : Entry} (vacant : find table index = none)
      (fit : fits entry) : Update fits alike index table (add table index entry)
  | written {table : Buckets Index Entry} {old new : Entry} (found : find table index = some old)
      (like : alike old new) : Update fits alike index table (write table index new)
  | rewritten {table : Buckets Index Entry} {mine : Entry → Bool} {old new : Entry}
      (held : holder table index mine = some old) (like : alike old new) :
      Update fits alike index table (rewrite table index mine new)
  | andThen {first second third : Buckets Index Entry}
      (former : Update fits alike index first second)
      (latter : Update fits alike index second third) : Update fits alike index first third

section Update

variable {fits : Entry → Prop} {alike : Entry → Entry → Prop} {index : Index}
  {table next : Buckets Index Entry}

theorem Update.of_ne (update : Update fits alike index table next) {other : Index}
    (different : other ≠ index) : next other = table other := by
  induction update with
  | unchanged => rfl
  | added => exact add_of_ne _ _ different
  | written => exact write_of_ne _ _ different
  | rewritten => exact rewrite_of_ne _ _ _ different
  | andThen _ _ former latter => exact latter.trans former

theorem Update.atMostOne (update : Update fits alike index table next)
    (single : AtMostOne table) : AtMostOne next := by
  induction update with
  | unchanged => exact single
  | added vacant => exact single.add _ vacant
  | written => exact single.write _ _
  | rewritten => exact single.rewrite _ _ _
  | andThen _ _ former latter => exact latter (former single)

theorem Update.everywhere (update : Update fits alike index table next)
    (new : ∀ entry, fits entry → property index entry)
    (kept : ∀ old new, alike old new → property index old → property index new)
    (all : Everywhere property table) : Everywhere property next := by
  induction update with
  | unchanged => exact all
  | added _ fit => exact all.add (new _ fit)
  | written found like => exact all.write (kept _ _ like (all.find found))
  | rewritten held like =>
      exact all.rewrite _ (kept _ _ like (all _ _ (List.mem_of_find?_eq_some held)))
  | andThen _ _ former latter => exact latter (former all)

/-- An entry keeps its place and everything that like entries share. -/
theorem Update.persists (update : Update fits alike index table next) {Name : Type}
    (name : Entry → Name) (kept : ∀ old new, alike old new → name new = name old)
    (single : AtMostOne table) {other : Index} {entry : Entry} (member : entry ∈ table other) :
    ∃ later ∈ next other, name later = name entry := by
  by_cases same : other = index
  · subst same
    induction update generalizing entry with
    | unchanged => exact ⟨entry, member, rfl⟩
    | added vacant =>
        rw [(find_eq_none_iff _ _).mp vacant] at member
        cases member
    | @written table old new found like =>
        have only := single.bucket_eq other
        rw [found] at only
        rw [only] at member
        rw [List.mem_singleton.mp member]
        refine ⟨new, ?_, kept old new like⟩
        unfold HashBuckets.write
        rw [Function.update_self]
        exact List.mem_append_right _ List.mem_cons_self
    | @rewritten table mine old new held like =>
        rw [single.eq_singleton held] at member
        rw [List.mem_singleton.mp member]
        refine ⟨new, ?_, kept old new like⟩
        rw [single.rewrite_eq held]
        exact List.mem_cons_self
    | andThen former _ ihFormer ihLatter =>
        obtain ⟨middle, among, first⟩ := ihFormer single member
        obtain ⟨later, found, second⟩ := ihLatter (former.atMostOne single) among
        exact ⟨later, found, second.trans first⟩
  · rw [update.of_ne same]
    exact ⟨entry, member, rfl⟩

theorem Update.occupied (update : Update fits alike index table next) {other : Index}
    (present : table other ≠ []) : next other ≠ [] := by
  by_cases same : other = index
  · subst same
    induction update with
    | unchanged => exact present
    | added vacant => exact absurd ((find_eq_none_iff _ _).mp vacant) present
    | written =>
        unfold write
        rw [Function.update_self]
        exact List.append_ne_nil_of_right_ne_nil _ (List.cons_ne_nil _ _)
    | rewritten =>
        unfold rewrite
        rw [Function.update_self]
        exact fun empty => present (List.map_eq_nil_iff.mp empty)
    | andThen _ _ former latter => exact latter (former present)
  · rw [update.of_ne same]
    exact present

end Update

end HashBuckets
