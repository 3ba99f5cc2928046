import OrderedStore.Bytes

/-!
# Ordered maps on byte strings

A map is its list of entries, in strictly ascending order of keys. The order is part of the type,
so two maps with the same entries are equal.

* `get?`, `insert`, `erase`: looking a key up, binding it, removing it;
* `mem_insertEntry`: what an insertion leaves in the list.
-/

namespace OrderedStore

/-- A map from byte strings, its entries in strictly ascending order of keys. -/
@[ext] structure KeyMap (β : Type) where
  entries : List (Bytes × β)
  sorted : entries.Pairwise (fun a b => a.1 < b.1)
  deriving DecidableEq

/-- A set of byte strings. -/
abbrev KeySet := KeyMap Unit

namespace KeyMap

variable {β : Type}

def empty : KeyMap β := ⟨[], .nil⟩

instance : Inhabited (KeyMap β) := ⟨empty⟩

/-- The value bound to a key. -/
def get? (m : KeyMap β) (key : Bytes) : Option β := (m.entries.find? (·.1 = key)).map (·.2)

def contains (m : KeyMap β) (key : Bytes) : Bool := (m.get? key).isSome

/-- The keys in ascending order. -/
def keys (m : KeyMap β) : List Bytes := m.entries.map (·.1)

def size (m : KeyMap β) : Nat := m.entries.length

/-- Binds `key` in a list of entries in ascending order. -/
def insertEntry (key : Bytes) (value : β) : List (Bytes × β) → List (Bytes × β)
  | [] => [(key, value)]
  | (k, v) :: rest =>
    if key < k then (key, value) :: (k, v) :: rest
    else if key = k then (key, value) :: rest
    else (k, v) :: insertEntry key value rest

theorem mem_insertEntry {key : Bytes} {value : β} {l : List (Bytes × β)} {e : Bytes × β}
    (h : e ∈ insertEntry key value l) : e = (key, value) ∨ e ∈ l := by
  induction l with
  | nil => exact Or.inl (List.mem_singleton.mp h)
  | cons a rest ih =>
    obtain ⟨k, v⟩ := a
    rw [insertEntry] at h
    split at h
    · exact List.mem_cons.mp h
    · split at h
      · exact (List.mem_cons.mp h).imp_right (List.mem_cons_of_mem _)
      · rcases List.mem_cons.mp h with h | h
        · exact Or.inr (h ▸ List.mem_cons_self)
        · exact (ih h).imp_right (List.mem_cons_of_mem _)

theorem sorted_insertEntry {key : Bytes} {value : β} {l : List (Bytes × β)}
    (h : l.Pairwise (fun a b => a.1 < b.1)) : (insertEntry key value l).Pairwise (fun a b => a.1 < b.1) := by
  induction l with
  | nil => exact List.pairwise_singleton _ _
  | cons a rest ih =>
    obtain ⟨k, v⟩ := a
    obtain ⟨hk, hrest⟩ := List.pairwise_cons.mp h
    rw [insertEntry]
    split
    · rename_i hlt
      refine List.pairwise_cons.mpr ⟨fun e he => ?_, h⟩
      rcases List.mem_cons.mp he with rfl | he
      · exact hlt
      · exact List.lt_trans hlt (hk e he)
    · rename_i hge
      split
      · rename_i heq
        exact List.pairwise_cons.mpr ⟨fun e he => heq ▸ hk e he, hrest⟩
      · rename_i hne
        refine List.pairwise_cons.mpr ⟨fun e he => ?_, ih hrest⟩
        rcases mem_insertEntry he with rfl | he
        · exact Bytes.lt_of_not_lt_of_ne hge (fun h => hne h.symm)
        · exact hk e he

/-- The map with `key` bound to `value`. -/
def insert (m : KeyMap β) (key : Bytes) (value : β) : KeyMap β :=
  ⟨insertEntry key value m.entries, sorted_insertEntry m.sorted⟩

/-- The map without `key`. -/
def erase (m : KeyMap β) (key : Bytes) : KeyMap β :=
  ⟨m.entries.filter (·.1 ≠ key), m.sorted.filter _⟩

end KeyMap

end OrderedStore
