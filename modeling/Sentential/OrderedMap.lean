/-!
# Maps that keep the order of their keys

A finite map whose keys stay in the order of their first insertion. Writing a key again replaces its
value and leaves its place alone. Everything the library shows as a map (the values of a table row,
the assignments of a proof branch, a counter-example) is one of these, because that order is shown.

## Main definitions

* `OrderedMap` — the entries, with no key twice
* `OrderedMap.insert`, `OrderedMap.erase`, `OrderedMap.get?` — writing, removing and reading a key
* `OrderedMap.ofList` — the map written by a list of entries, later entries winning

## Main results

* `keys_insert` — a new key is put last, an old one keeps its place
* `get?_insert` — reading after writing
* `mem_keys_iff` — a key is present exactly when it can be read
* `eq_of_keys_eq` — maps are equal if their keys and their values are
-/

namespace Sentential

universe u v w

/-- A finite map that remembers the order in which its keys first arrived. -/
structure OrderedMap (κ : Type u) (ν : Type v) where
  /-- The entries, oldest key first. -/
  entries : List (κ × ν)
  /-- No key occurs twice. -/
  nodup : (entries.map Prod.fst).Nodup

namespace OrderedMap

variable {κ : Type u} {ν : Type v}

/-- The map without entries. -/
def empty : OrderedMap κ ν := ⟨[], List.nodup_nil⟩

instance : EmptyCollection (OrderedMap κ ν) := ⟨empty⟩

instance : Inhabited (OrderedMap κ ν) := ⟨empty⟩

/-- The keys, oldest first. -/
def keys (m : OrderedMap κ ν) : List κ := m.entries.map Prod.fst

/-- Whether the map has no entries. -/
def isEmpty (m : OrderedMap κ ν) : Bool := m.entries.isEmpty

theorem keys_nodup (m : OrderedMap κ ν) : m.keys.Nodup := m.nodup

@[ext] theorem ext {m n : OrderedMap κ ν} (h : m.entries = n.entries) : m = n := by
  cases m; cases n; cases h; rfl

variable [DecidableEq κ]

/-- The value that a list of entries gives to a key: the first one, if there is any. -/
def find (k : κ) : List (κ × ν) → Option ν
  | [] => none
  | (k', x) :: rest => if k' = k then some x else find k rest

/-- A list of entries with one key written: in its place, or else last. -/
def write (k : κ) (x : ν) : List (κ × ν) → List (κ × ν)
  | [] => [(k, x)]
  | (k', y) :: rest => if k' = k then (k', x) :: rest else (k', y) :: write k x rest

theorem map_fst_write (k : κ) (x : ν) (l : List (κ × ν)) :
    (write k x l).map Prod.fst =
      if k ∈ l.map Prod.fst then l.map Prod.fst else l.map Prod.fst ++ [k] := by
  induction l with
  | nil => simp [write]
  | cons e rest ih =>
    obtain ⟨k', y⟩ := e
    by_cases h : k' = k
    · simp [write, h]
    · have h' : ¬ k = k' := fun e => h e.symm
      by_cases hm : k ∈ rest.map Prod.fst
      · simp only [write, h, if_false, List.map_cons, ih, hm, if_true, List.mem_cons, or_true]
      · simp only [write, h, if_false, List.map_cons, ih, hm, List.mem_cons, h', or_self,
          List.cons_append]

theorem find_write (k j : κ) (x : ν) (l : List (κ × ν)) :
    find j (write k x l) = if k = j then some x else find j l := by
  induction l with
  | nil => simp [write, find]
  | cons e rest ih =>
    obtain ⟨k', y⟩ := e
    by_cases h : k' = k
    · subst h
      by_cases hj : k' = j <;> simp [write, find, hj]
    · by_cases hj : k' = j
      · subst hj
        have h' : ¬ k = k' := fun e => h e.symm
        simp [write, find, h, h']
      · simp [write, find, h, hj, ih]

theorem write_of_notMem {k : κ} {x : ν} {l : List (κ × ν)} (absent : k ∉ l.map Prod.fst) :
    write k x l = l ++ [(k, x)] := by
  induction l with
  | nil => rfl
  | cons e rest ih =>
    rw [List.map_cons, List.mem_cons, not_or] at absent
    rw [write, if_neg (Ne.symm absent.1), ih absent.2, List.cons_append]

/-- Writes a key: an old key keeps its place, a new one is put last. -/
def insert (m : OrderedMap κ ν) (k : κ) (x : ν) : OrderedMap κ ν where
  entries := write k x m.entries
  nodup := by
    rw [map_fst_write]
    split
    · exact m.nodup
    · rename_i h
      rw [List.nodup_append]
      refine ⟨m.nodup, by simp, ?_⟩
      intro a ha b hb
      simp only [List.mem_singleton] at hb
      rintro rfl
      exact h (hb ▸ ha)

/-- The value of a key. -/
def get? (m : OrderedMap κ ν) (k : κ) : Option ν := find k m.entries

/-- Whether the key is present. -/
def contains (m : OrderedMap κ ν) (k : κ) : Bool := decide (k ∈ m.keys)

/-- Writes a key only if it is absent. -/
def insertIfAbsent (m : OrderedMap κ ν) (k : κ) (x : ν) : OrderedMap κ ν :=
  if m.contains k then m else m.insert k x

/-- Removes a key, if it is present. -/
def erase (m : OrderedMap κ ν) (k : κ) : OrderedMap κ ν where
  entries := m.entries.filter (fun e => decide (e.1 ≠ k))
  nodup := m.nodup.sublist (List.filter_sublist.map Prod.fst)

/-- Writes all entries of a list in turn. -/
def insertMany (m : OrderedMap κ ν) (l : List (κ × ν)) : OrderedMap κ ν :=
  l.foldl (fun m e => m.insert e.1 e.2) m

/-- The map that a list of entries writes: a repeated key keeps its first place and its last value.
-/
def ofList (l : List (κ × ν)) : OrderedMap κ ν := insertMany empty l

@[simp] theorem get?_empty (k : κ) : (empty : OrderedMap κ ν).get? k = none := rfl

omit [DecidableEq κ] in
@[simp] theorem keys_empty : (empty : OrderedMap κ ν).keys = [] := rfl

theorem keys_insert (m : OrderedMap κ ν) (k : κ) (x : ν) :
    (m.insert k x).keys = if k ∈ m.keys then m.keys else m.keys ++ [k] :=
  map_fst_write k x m.entries

theorem get?_insert (m : OrderedMap κ ν) (k j : κ) (x : ν) :
    (m.insert k x).get? j = if k = j then some x else m.get? j :=
  find_write k j x m.entries

@[simp] theorem get?_insert_self (m : OrderedMap κ ν) (k : κ) (x : ν) :
    (m.insert k x).get? k = some x := by simp [get?_insert]

theorem get?_insert_of_ne (m : OrderedMap κ ν) {k j : κ} (x : ν) (h : k ≠ j) :
    (m.insert k x).get? j = m.get? j := by simp [get?_insert, h]

theorem find_isSome_iff (k : κ) (l : List (κ × ν)) :
    (find k l).isSome ↔ k ∈ l.map Prod.fst := by
  induction l with
  | nil => simp [find]
  | cons e rest ih =>
    obtain ⟨k', y⟩ := e
    by_cases h : k' = k
    · simp [find, h]
    · have h' : ¬ k = k' := fun e => h e.symm
      simp only [find, h, if_false, List.map_cons, List.mem_cons, h', false_or, ih]

theorem mem_of_find_eq_some {k : κ} {x : ν} {l : List (κ × ν)} (h : find k l = some x) :
    (k, x) ∈ l := by
  induction l with
  | nil => simp [find] at h
  | cons e rest ih =>
    obtain ⟨k', y⟩ := e
    by_cases hk : k' = k
    · simp only [find, hk, if_true, Option.some.injEq] at h
      simp [hk, h]
    · simp only [find, hk, if_false] at h
      exact List.mem_cons_of_mem _ (ih h)

theorem find_eq_some_of_mem {k : κ} {x : ν} {l : List (κ × ν)} (nodup : (l.map Prod.fst).Nodup)
    (h : (k, x) ∈ l) : find k l = some x := by
  induction l with
  | nil => simp at h
  | cons e rest ih =>
    obtain ⟨k', y⟩ := e
    rw [List.map_cons, List.nodup_cons] at nodup
    rcases List.mem_cons.mp h with same | later
    · cases same
      simp [find]
    · have hk : k' ≠ k := by
        rintro rfl
        exact nodup.1 (List.mem_map.mpr ⟨_, later, rfl⟩)
      simp only [find, hk, if_false]
      exact ih nodup.2 later

theorem get?_eq_some_iff (m : OrderedMap κ ν) (k : κ) (x : ν) :
    m.get? k = some x ↔ (k, x) ∈ m.entries :=
  ⟨mem_of_find_eq_some, find_eq_some_of_mem m.nodup⟩

theorem mem_keys_iff (m : OrderedMap κ ν) (k : κ) : k ∈ m.keys ↔ (m.get? k).isSome :=
  (find_isSome_iff k m.entries).symm

/-- If all entries of a key give it the same value, writing them gives it that value. -/
theorem get?_insertMany_of_unique (m : OrderedMap κ ν) (l : List (κ × ν)) {k : κ} {x : ν}
    (unique : ∀ y, (k, y) ∈ l → y = x) (h : (k, x) ∈ l ∨ m.get? k = some x) :
    (m.insertMany l).get? k = some x := by
  induction l generalizing m with
  | nil => exact h.resolve_left (by simp)
  | cons e rest ih =>
    obtain ⟨k', y⟩ := e
    refine ih (m.insert k' y) (fun z hz => unique z (List.mem_cons_of_mem _ hz)) ?_
    by_cases hk : k' = k
    · subst hk
      rw [unique y List.mem_cons_self]
      exact Or.inr (get?_insert_self m k' x)
    · rw [get?_insert_of_ne m y hk]
      refine h.imp_left fun hx => (List.mem_cons.mp hx).resolve_left ?_
      rintro ⟨⟩
      exact hk rfl

/-- Writing other keys does not touch a key. -/
theorem get?_insertMany_of_notMem (m : OrderedMap κ ν) (l : List (κ × ν)) {k : κ}
    (h : ∀ y, (k, y) ∉ l) : (m.insertMany l).get? k = m.get? k := by
  induction l generalizing m with
  | nil => rfl
  | cons e rest ih =>
    obtain ⟨k', y⟩ := e
    have hk : k' ≠ k := by
      rintro rfl
      exact h y List.mem_cons_self
    rw [← get?_insert_of_ne m y hk]
    exact ih (m.insert k' y) fun z hz => h z (List.mem_cons_of_mem _ hz)

theorem mem_keys_insert (m : OrderedMap κ ν) (k j : κ) (x : ν) :
    j ∈ (m.insert k x).keys ↔ j = k ∨ j ∈ m.keys := by
  rw [keys_insert]
  split
  · rename_i h
    exact ⟨Or.inr, fun hj => hj.elim (fun e => e ▸ h) id⟩
  · simp [or_comm]

theorem mem_keys_insertMany (m : OrderedMap κ ν) (l : List (κ × ν)) (k : κ) :
    k ∈ (m.insertMany l).keys ↔ k ∈ l.map Prod.fst ∨ k ∈ m.keys := by
  induction l generalizing m with
  | nil => simp [insertMany]
  | cons e rest ih =>
    have step : (m.insertMany (e :: rest)).keys = ((m.insert e.1 e.2).insertMany rest).keys := rfl
    rw [step, ih, mem_keys_insert, List.map_cons, List.mem_cons]
    constructor
    · rintro (later | here | before)
      · exact Or.inl (Or.inr later)
      · exact Or.inl (Or.inl here)
      · exact Or.inr before
    · rintro ((here | later) | before)
      · exact Or.inr (Or.inl here)
      · exact Or.inl later
      · exact Or.inr (Or.inr before)

theorem mem_keys_ofList (l : List (κ × ν)) (k : κ) :
    k ∈ (ofList l).keys ↔ k ∈ l.map Prod.fst := by
  simp [ofList, mem_keys_insertMany]

/-- Entries with distinct keys can all be read after they are written. -/
theorem get?_insertMany_of_mem (m : OrderedMap κ ν) {l : List (κ × ν)}
    (nodup : (l.map Prod.fst).Nodup) {k : κ} {x : ν} (mem : (k, x) ∈ l) :
    (m.insertMany l).get? k = some x := by
  refine get?_insertMany_of_unique m l (fun y other => ?_) (Or.inl mem)
  have same := (find_eq_some_of_mem nodup other).symm.trans (find_eq_some_of_mem nodup mem)
  exact Option.some.inj same

theorem get?_ofList_of_mem {l : List (κ × ν)} (nodup : (l.map Prod.fst).Nodup) {k : κ} {x : ν}
    (h : (k, x) ∈ l) : (ofList l).get? k = some x :=
  get?_insertMany_of_mem empty nodup h

theorem keys_insert_of_mem (m : OrderedMap κ ν) {k : κ} (x : ν) (mem : k ∈ m.keys) :
    (m.insert k x).keys = m.keys := by
  rw [keys_insert, if_pos mem]

/-- A new key is put behind all entries. -/
theorem entries_insert_of_notMem (m : OrderedMap κ ν) {k : κ} (x : ν) (absent : k ∉ m.keys) :
    (m.insert k x).entries = m.entries ++ [(k, x)] :=
  write_of_notMem absent

/-- Writing keys that are present leaves the keys alone. -/
theorem keys_insertMany_of_mem (m : OrderedMap κ ν) (l : List (κ × ν))
    (present : ∀ e ∈ l, e.1 ∈ m.keys) : (m.insertMany l).keys = m.keys := by
  induction l generalizing m with
  | nil => rfl
  | cons e rest ih =>
    rw [List.forall_mem_cons] at present
    have kept := keys_insert_of_mem m e.2 present.1
    exact (ih (m.insert e.1 e.2) (kept.symm ▸ present.2)).trans kept

/-- New keys are put behind the old ones, in the order in which they are written. -/
theorem keys_insertMany_of_notMem (m : OrderedMap κ ν) (l : List (κ × ν))
    (nodup : (l.map Prod.fst).Nodup) (absent : ∀ e ∈ l, e.1 ∉ m.keys) :
    (m.insertMany l).keys = m.keys ++ l.map Prod.fst := by
  induction l generalizing m with
  | nil => exact (List.append_nil _).symm
  | cons e rest ih =>
    rw [List.map_cons, List.nodup_cons] at nodup
    rw [List.forall_mem_cons] at absent
    have added : (m.insert e.1 e.2).keys = m.keys ++ [e.1] := by rw [keys_insert, if_neg absent.1]
    have later : ∀ e' ∈ rest, e'.1 ∉ (m.insert e.1 e.2).keys := by
      intro e' mem present
      rcases (mem_keys_insert m e.1 e'.1 e.2).mp present with same | old
      · exact nodup.1 (same ▸ List.mem_map_of_mem mem)
      · exact absent.2 e' mem old
    have rest_eq := ih (m.insert e.1 e.2) nodup.2 later
    rw [added, List.append_assoc] at rest_eq
    exact rest_eq

/-- The entries are the keys with the values that they can be read with. -/
theorem map_some_entries (m : OrderedMap κ ν) :
    m.entries.map some = m.keys.map fun k => (m.get? k).map fun x => (k, x) := by
  rw [keys, List.map_map]
  refine List.map_congr_left fun e mem => ?_
  rw [Function.comp_apply, (get?_eq_some_iff m e.1 e.2).mpr mem, Option.map_some]

/-- Maps with the same keys in the same order are equal if they give them the same values. -/
theorem eq_of_keys_eq {m n : OrderedMap κ ν} (keys : m.keys = n.keys)
    (values : ∀ k ∈ m.keys, m.get? k = n.get? k) : m = n := by
  have same : m.entries.map some = n.entries.map some := by
    rw [map_some_entries m, map_some_entries n, ← keys]
    exact List.map_congr_left fun k mem => by rw [values k mem]
  exact ext ((List.map_inj_right fun _ _ => Option.some.inj).mp same)

/-- Writing the value that a key has changes nothing. -/
theorem insert_of_get?_eq_some (m : OrderedMap κ ν) {k : κ} {x : ν} (held : m.get? k = some x) :
    m.insert k x = m := by
  have present : k ∈ m.keys := (mem_keys_iff m k).mpr (by rw [held]; rfl)
  refine eq_of_keys_eq (keys_insert_of_mem m x present) fun j _ => ?_
  rw [get?_insert]
  split
  · rename_i same
    rw [← same, held]
  · rfl

end OrderedMap

end Sentential
