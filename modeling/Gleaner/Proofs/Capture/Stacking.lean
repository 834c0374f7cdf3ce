import Gleaner.Capture.Stack
import Mathlib.Algebra.GroupWithZero.Nat
import Mathlib.Data.List.Basic

/-!
# Stacking in steps

A stacked table has the height of the shortest block, and its rows hold the cells of the blocks one
block after the other. Neither depends on whether some of the blocks were stacked before: the least
of all heights is the least of the least heights of the groups, and up to there the rows of a
stacked group are complete.
-/

namespace Gleaner.Value

/-! ### The least of some numbers -/

theorem least_mem {numbers : List Nat} (some : numbers ≠ []) : least numbers ∈ numbers := by
  induction numbers with
  | nil => exact absurd rfl some
  | cons n rest ih =>
    cases rest with
    | nil => exact List.mem_singleton_self n
    | cons m rest =>
      have later := ih (List.cons_ne_nil m rest)
      -- The first number is the least, or one behind it is.
      rcases Nat.le_total n (least (m :: rest)) with first | other
      · exact List.mem_cons.mpr (.inl (Nat.min_eq_left first))
      · have least_eq : least (n :: m :: rest) = least (m :: rest) := Nat.min_eq_right other
        rw [least_eq]
        exact List.mem_cons_of_mem n later

theorem least_le {numbers : List Nat} {n : Nat} (member : n ∈ numbers) : least numbers ≤ n := by
  induction numbers with
  | nil => cases member
  | cons m rest ih =>
    cases rest with
    | nil => exact Nat.le_of_eq (List.mem_singleton.mp member).symm
    | cons k rest =>
      rcases List.mem_cons.mp member with rfl | later
      · exact Nat.min_le_left _ _
      · exact Nat.le_trans (Nat.min_le_right _ _) (ih later)

theorem min?_eq_least {numbers : List Nat} (some : numbers ≠ []) :
    numbers.min? = .some (least numbers) :=
  List.min?_eq_some_iff.mpr ⟨least_mem some, fun _ member => least_le member⟩

/-- The least number of all groups is the least of the least ones of each. -/
theorem least_flatten {groups : List (List Nat)} (each : ∀ group ∈ groups, group ≠ []) :
    least groups.flatten = least (groups.map least) := by
  rcases groups with _ | ⟨first, rest⟩
  · rfl
  have some : (first :: rest).flatten ≠ [] := by
    simp [each first List.mem_cons_self]
  apply Nat.le_antisymm
  · -- The least of the least ones belongs to one of the groups.
    have among : least ((first :: rest).map least) ∈ (first :: rest).map least :=
      least_mem (by simp)
    obtain ⟨group, member, least_eq⟩ := List.mem_map.mp among
    rw [← least_eq]
    exact least_le (List.mem_flatten.mpr ⟨group, member, least_mem (each group member)⟩)
  · obtain ⟨group, member, inGroup⟩ := List.mem_flatten.mp (least_mem some)
    calc least ((first :: rest).map least)
      _ ≤ least group := least_le (List.mem_map_of_mem member)
      _ ≤ least (first :: rest).flatten := least_le inGroup

/-! ### Heights and cells -/

/-- The number of rows that some blocks have in common. -/
def commonHeight (blocks : List Value) : Nat :=
  least (blocks.map fun block => block.items.length)

/-- The cells of a row of a block; a row that is no list has none. -/
def cells (row : Nat) (block : Value) : List Value :=
  (block.items[row]?.map items).getD []

theorem stackRow_eq (blocks : List Value) (row : Nat) :
    stackRow (blocks.map items) row = .list (blocks.flatMap (cells row)) := by
  rw [stackRow, List.flatMap_map]
  rfl

theorem stackColumns_eq (blocks : List Value) :
    stackColumns blocks =
      .list ((List.range (commonHeight blocks)).map fun row => .list (blocks.flatMap (cells row))) := by
  have height : commonHeight blocks = least ((blocks.map items).map List.length) := by
    rw [commonHeight, List.map_map]
    rfl
  rw [height, ← funext (stackRow_eq blocks)]
  rfl

theorem length_items_stackColumns (blocks : List Value) :
    (stackColumns blocks).items.length = commonHeight blocks := by
  rw [stackColumns_eq]
  simp [items, items?]

theorem cells_stackColumns {blocks : List Value} {row : Nat} (inside : row < commonHeight blocks) :
    (stackColumns blocks).cells row = blocks.flatMap (cells row) := by
  rw [stackColumns_eq]
  simp [cells, items, items?, inside]

theorem commonHeight_flatten {groups : List (List Value)} (each : ∀ group ∈ groups, group ≠ []) :
    commonHeight groups.flatten = commonHeight (groups.map stackColumns) := by
  have heights : ∀ group ∈ groups.map (List.map fun block : Value => block.items.length),
      group ≠ [] := by
    simpa using each
  rw [commonHeight, commonHeight, List.map_flatten, least_flatten heights, List.map_map,
    List.map_map]
  congr 1
  apply List.map_congr_left
  intro group _
  exact (length_items_stackColumns group).symm

/-- Below the common height, the rows of stacked groups hold the cells of all their blocks. -/
theorem flatMap_cells_stackColumns {groups : List (List Value)} {row : Nat}
    (inside : row < commonHeight (groups.map stackColumns)) :
    (groups.map stackColumns).flatMap (cells row) = groups.flatten.flatMap (cells row) := by
  rw [List.flatMap_map, List.flatten_eq_flatMap, List.flatMap_assoc]
  apply List.flatMap_congr
  intro group member
  apply cells_stackColumns
  calc row
    _ < commonHeight (groups.map stackColumns) := inside
    _ ≤ (stackColumns group).items.length := least_le (by simpa using ⟨group, member, rfl⟩)
    _ = commonHeight group := length_items_stackColumns group

/-! ### Tables of rows -/

/-- A table given by its rows. -/
def ofRows (rows : List (List Value)) : Value :=
  .list (rows.map .list)

/-- A row of a table given by its rows. -/
def rowAt (row : Nat) (table : List (List Value)) : List Value :=
  table[row]?.getD []

theorem cells_ofRows (row : Nat) (table : List (List Value)) :
    (ofRows table).cells row = rowAt row table := by
  cases found : table[row]? <;> simp [cells, ofRows, rowAt, items, items?, found]

theorem commonHeight_ofRows (tables : List (List (List Value))) :
    commonHeight (tables.map ofRows) = least (tables.map List.length) := by
  rw [commonHeight, List.map_map]
  congr 1
  apply List.map_congr_left
  intro table _
  simp [ofRows, items, items?]

theorem stackColumns_ofRows (tables : List (List (List Value))) :
    stackColumns (tables.map ofRows) =
      ofRows ((List.range (least (tables.map List.length))).map fun row =>
        tables.flatMap (rowAt row)) := by
  rw [stackColumns_eq, commonHeight_ofRows, ofRows, List.map_map]
  simp only [List.flatMap_map, cells_ofRows]
  rfl

/-- The pieces of a joined row stand where the lengths of the earlier ones say. -/
theorem getElem?_flatMap_append {α β : Type} (f : α → List β) (before : List α) (one : α)
    (after : List α) {column : Nat} {cell : β} (found : (f one)[column]? = some cell) :
    ((before ++ one :: after).flatMap f)[(before.map fun other => (f other).length).sum + column]? =
      some cell := by
  have inside : column < (f one).length := (List.getElem?_eq_some_iff.mp found).1
  rw [List.flatMap_append, List.flatMap_cons, ← List.length_flatMap,
    List.getElem?_append_right (Nat.le_add_right _ _), Nat.add_sub_cancel_left,
    List.getElem?_append_left inside, found]

/-- Groups of blocks can be stacked first. Tables that are made of rows lose no cell of the rows that
they have in common, and every cell stays in its row. -/
theorem stackColumns_grouped :
    (∀ groups : List (List Value), (∀ group ∈ groups, group ≠ []) →
      stackColumns (groups.map stackColumns) = stackColumns groups.flatten) ∧
    ∀ tables : List (List (List Value)), tables ≠ [] →
      ∃ rows, stackColumns (tables.map ofRows) = ofRows rows ∧
        (tables.map List.length).min? = some rows.length ∧
        ∀ r row, rows[r]? = some row →
          row.length = (tables.map fun table => (rowAt r table).length).sum ∧
          ∀ before table after, tables = before ++ table :: after →
            ∀ c cell, (rowAt r table)[c]? = some cell →
              row[(before.map fun other => (rowAt r other).length).sum + c]? = some cell := by
  constructor
  · intro groups each
    -- Row by row, and there are as many rows in all groups together as in all blocks.
    rw [stackColumns_eq, stackColumns_eq, commonHeight_flatten each]
    congr 1
    apply List.map_congr_left
    intro row inRange
    rw [flatMap_cells_stackColumns (List.mem_range.mp inRange)]
  · intro tables some
    refine ⟨_, stackColumns_ofRows tables, ?_, fun r row found => ?_⟩
    · rw [min?_eq_least (by simpa using some), List.length_map, List.length_range]
    -- The row with this number was made from the rows with this number.
    · obtain ⟨_, rfl⟩ : r < least (tables.map List.length) ∧ tables.flatMap (rowAt r) = row := by
        simpa [List.getElem?_eq_some_iff] using found
      refine ⟨List.length_flatMap, ?_⟩
      rintro before table after rfl c cell inTable
      exact getElem?_flatMap_append (rowAt r) before table after inTable

/-- Blocks with ragged rows, a row that is no list, and heights three, three and two; then two tables
of which the second is shorter. -/
theorem stackColumns_grouped_ragged :
    let ragged : Value := .list [.list [.text "a", .text "b"], .list [], .list [.text "c"]]
    let spoiled : Value := .list [.list [.text "d"], .text "no row", .null]
    let short : Value := .list [.list [.text "e"], .list [.text "f", .null]]
    stackColumns [stackColumns [ragged, spoiled], stackColumns [short]] =
      stackColumns [ragged, spoiled, short] ∧
    stackColumns [ragged, spoiled, short] =
      .list [.list [.text "a", .text "b", .text "d", .text "e"], .list [.text "f", .null]] ∧
    ∃ rows, stackColumns ([[[.text "a"], [.text "b"]], [[.text "c", .text "d"]]].map ofRows) =
      ofRows rows ∧ rows.length = 1 ∧
      ∀ row, rows[0]? = some row → row.length = 3 ∧ row[2]? = some (.text "d") := by
  intro ragged spoiled short
  refine ⟨stackColumns_grouped.1 [[ragged, spoiled], [short]] (by simp), rfl, ?_⟩
  let tables : List (List (List Value)) := [[[.text "a"], [.text "b"]], [[.text "c", .text "d"]]]
  obtain ⟨rows, stacked, height, each⟩ := stackColumns_grouped.2 tables (by simp [tables])
  refine ⟨rows, stacked, (Option.some.inj height).symm, fun row found => ?_⟩
  obtain ⟨width, placed⟩ := each 0 row found
  exact ⟨width, placed [_] _ [] rfl 1 (.text "d") rfl⟩

end Gleaner.Value
