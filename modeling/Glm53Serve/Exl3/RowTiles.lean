import Glm53Serve.Exl3.Ways

/-!
# The row tiles

`_exl3_moe_row_tiles` cuts the sorted buffer in tiles: in the tile that starts at `row0`,
each expert brings its rows from `row0` on, as many as the temporary rows hold.

## What is proved

* `tileSrc_eq` — the rows of a tile, expert by expert.
* `rowTiles_enumerate` — the tiles enumerate the sorted buffer once, each row with the
  expert whose segment it lies in.
* `exl3MoeRowTiles_eq` — the tiles add the rows of every expert, once.
-/

namespace Glm53Serve.Exl3

open Torch Segments

/-! ### The rows of a tile -/

theorem getD_map_zero {f : ℕ → ℕ} (hf : f 0 = 0) (l : List ℕ) (e : ℕ) :
    (l.map f).getD e 0 = f (l.getD e 0) := by
  rw [List.getD_eq_getElem?_getD, List.getD_eq_getElem?_getD, List.getElem?_map]
  cases l[e]? <;> simp [hf]

/-- The rows of a tile that an expert with `c` rows brings. -/
theorem getD_tileCounts (counts : List ℕ) (tile row0 e : ℕ) :
    (counts.map fun c => min (c - row0) tile).getD e 0 = min (counts.getD e 0 - row0) tile :=
  getD_map_zero (by simp) counts e

/-- The prefix buffer holds the starts of the segments. -/
theorem getD_prefixes {counts : List ℕ} {e : ℕ} (he : e < counts.length) :
    (0 :: cumsum counts.dropLast).getD e 0 = start counts e := by
  cases e with
  | zero => rfl
  | succ e =>
    have hlt : e < counts.dropLast.length := by
      rw [List.length_dropLast]
      omega
    rw [List.getD_cons_succ, getD_cumsum hlt, start, start, List.dropLast_eq_take, List.take_take]
    congr 2
    omega

/-- A tile lists, for each expert in order, consecutive rows of its segment. -/
theorem tileSrc_eq (counts : List ℕ) (tile row0 : ℕ) :
    tileSrc counts tile row0 = (List.range counts.length).flatMap fun e =>
      (List.range (min (counts.getD e 0 - row0) tile)).map (start counts e + row0 + ·) := by
  rw [tileSrc, map_searchsorted (counts.map fun c => min (c - row0) tile)
    fun e j => (0 :: cumsum counts.dropLast).getD e 0 + row0 + j, List.length_map]
  refine List.flatMap_congr fun e he => ?_
  rw [getD_tileCounts, getD_prefixes (List.mem_range.mp he)]

/-- The window of the segment of `e` that the tile at `row0` holds. -/
def tileBlock {α : Type*} (counts : List ℕ) (tile row0 e : ℕ) (l : List α) : List α :=
  ((seg counts e l).drop row0).take tile

/-- The buffer of a tile is the windows of the segments. -/
theorem indexSelect_tileSrc {α : Type*} (counts : List ℕ) (tile row0 : ℕ) (l : List α) :
    indexSelect l (tileSrc counts tile row0)
      = (List.range counts.length).flatMap fun e => tileBlock counts tile row0 e l := by
  rw [tileSrc_eq, indexSelect, List.filterMap_flatMap]
  refine List.flatMap_congr fun e _ => ?_
  rw [← indexSelect, indexSelect_range, tileBlock, seg, List.drop_take, List.drop_drop,
    List.take_take, min_comm]

theorem length_tileBlock {α : Type*} {counts : List ℕ} {l : List α} (h : counts.sum ≤ l.length)
    (tile row0 e : ℕ) :
    (tileBlock counts tile row0 e l).length = min (counts.getD e 0 - row0) tile := by
  rw [tileBlock, List.length_take, List.length_drop, length_seg h, min_comm]

/-- The segments of the buffer of a tile, as the launch reads them. -/
theorem seg_tile {α : Type*} {counts : List ℕ} {l : List α} (h : counts.sum ≤ l.length)
    (tile row0 : ℕ) {e : ℕ} (he : e < counts.length) :
    seg ((counts.map fun c => min (c - row0) tile) ++ [0]) e
        (indexSelect l (tileSrc counts tile row0)) = tileBlock counts tile row0 e l := by
  rw [indexSelect_tileSrc]
  refine seg_flatMap _ (fun i hi => ?_) he
  rw [length_tileBlock h, List.getD_append _ _ _ _ (by rwa [List.length_map]), getD_tileCounts]

theorem length_tile {α : Type*} {counts : List ℕ} {l : List α} (h : counts.sum ≤ l.length)
    (tile row0 : ℕ) :
    (indexSelect l (tileSrc counts tile row0)).length
      = (counts.map fun c => min (c - row0) tile).sum := by
  have hsum : ∀ n ≤ counts.length,
      ((List.range n).map fun e => min (counts.getD e 0 - row0) tile).sum
        = start (counts.map fun c => min (c - row0) tile) n := by
    intro n hn
    induction n with
    | zero => rfl
    | succ n ih =>
      rw [List.range_succ, List.map_append, List.sum_append, ih (by omega), start_succ,
        getD_tileCounts]
      simp
  rw [indexSelect_tileSrc, List.length_flatMap]
  simp only [length_tileBlock h]
  rw [hsum _ le_rfl, ← start_length, List.length_map]

/-! ### The enumeration -/

/-- What one pass of the loop hands to the launch, and the experts it computes it from. -/
structure RowTile where
  expertId : List ℕ
  src : List ℕ
  tileEc : List ℕ
  deriving DecidableEq

/-- The tile at `row0`; none if no expert has rows there. -/
def rowTile (counts : List ℕ) (tile row0 : ℕ) : Option RowTile :=
  let tileCounts := counts.map fun c => min (c - row0) tile
  if tileCounts.sum = 0 then none
  else
    some
      { expertId := (List.range tileCounts.sum).map (searchsorted (cumsum tileCounts))
        src := tileSrc counts tile row0
        tileEc := tileCounts ++ [0] }

/-- The tiles of `_exl3_moe_row_tiles`, in order. -/
def rowTiles (counts : List ℕ) (tile maxRows : ℕ) : List RowTile :=
  (List.range ((maxRows + tile - 1) / tile)).filterMap fun t => rowTile counts tile (t * tile)

/-- A tile without rows has no positions. -/
theorem flatMap_src_rowTiles (counts : List ℕ) (tile maxRows : ℕ) :
    (rowTiles counts tile maxRows).flatMap (·.src)
      = (List.range ((maxRows + tile - 1) / tile)).flatMap fun t =>
        tileSrc counts tile (t * tile) := by
  have htile : ∀ row0, ((rowTile counts tile row0).map (·.src)).getD []
      = tileSrc counts tile row0 := by
    intro row0
    rw [rowTile]
    split_ifs with h
    · simp [tileSrc, h]
    · rfl
  rw [rowTiles, List.flatMap_def, List.map_filterMap, List.flatMap_def]
  simp only [← htile]
  induction List.range ((maxRows + tile - 1) / tile) with
  | nil => rfl
  | cons t ts ih =>
    cases h : rowTile counts tile (t * tile) with
    | none => simpa [h] using ih
    | some r => simpa [h] using ih

/-- Enough tiles reach the last row of the hottest expert. -/
theorem le_tiles_mul {tile : ℕ} (htile : 1 ≤ tile) (maxRows : ℕ) :
    maxRows ≤ (maxRows + tile - 1) / tile * tile := by
  have hdiv := Nat.div_add_mod (maxRows + tile - 1) tile
  have hmod := Nat.mod_lt (maxRows + tile - 1) htile
  rw [Nat.mul_comm] at hdiv
  omega

/-- The rows of an expert in a tile are a window of its segment. -/
theorem window_segment (counts : List ℕ) (tile row0 e : ℕ) :
    (List.range (min (counts.getD e 0 - row0) tile)).map (start counts e + row0 + ·)
      = (((List.range (counts.getD e 0)).map (start counts e + ·)).drop row0).take tile := by
  refine List.ext_getElem ?_ fun j hj hj' => ?_
  · simp only [List.length_map, List.length_take, List.length_drop, List.length_range]
    exact min_comm _ _
  · simp only [List.getElem_map, List.getElem_take, List.getElem_drop, List.getElem_range]
    omega

/-- The tiles up to the hottest expert list every position of the buffer once. -/
theorem rowTiles_perm {counts : List ℕ} {tile maxRows : ℕ} (htile : 1 ≤ tile)
    (hmax : ∀ e < counts.length, counts.getD e 0 ≤ maxRows) :
    ((rowTiles counts tile maxRows).flatMap (·.src)).Perm (List.range counts.sum) := by
  rw [flatMap_src_rowTiles]
  simp only [tileSrc_eq, window_segment]
  refine (flatMap_comm_perm _ _ _).trans (List.Perm.of_eq ?_)
  rw [range_sum]
  refine List.flatMap_congr fun e he => flatMap_window _ ?_
  rw [List.length_map, List.length_range]
  exact (hmax e (List.mem_range.mp he)).trans (le_tiles_mul htile maxRows)

/-- A position of a tile: its expert, and the row of the expert's segment it stands for. -/
theorem getElem?_tileSrc {counts : List ℕ} {tile row0 e j : ℕ} (he : e < counts.length)
    (hj : j < min (counts.getD e 0 - row0) tile) :
    (tileSrc counts tile row0)[start (counts.map fun c => min (c - row0) tile) e + j]?
      = some (start counts e + row0 + j) := by
  have he' : e < (counts.map fun c => min (c - row0) tile).length := by rwa [List.length_map]
  have hj' : j < (counts.map fun c => min (c - row0) tile).getD e 0 := by
    rwa [getD_tileCounts]
  have hlt := seg_le_sum (counts.map fun c => min (c - row0) tile) e
  rw [tileSrc, List.getElem?_map, List.getElem?_range (by omega), Option.map_some,
    searchsorted_cumsum he' hj']
  simp only [getD_prefixes he, getD_cumsum he', start_succ]
  congr 1
  omega

/-- Each position of a tile belongs to the expert that the search finds, and stands for a
row of the segment of that expert. -/
theorem rowTile_attribution {counts : List ℕ} {tile row0 : ℕ} {r : RowTile}
    (hr : rowTile counts tile row0 = some r) {j x : ℕ} (hx : r.src[j]? = some x) :
    ∃ e < counts.length, r.expertId[j]? = some e ∧
      start r.tileEc e ≤ j ∧ j < start r.tileEc (e + 1) ∧
      start counts e ≤ x ∧ x < start counts (e + 1) := by
  rw [rowTile] at hr
  split_ifs at hr
  obtain rfl := (Option.some.inj hr).symm
  obtain ⟨hlt, -⟩ := List.getElem?_eq_some_iff.mp hx
  rw [tileSrc, List.length_map, List.length_range] at hlt
  obtain ⟨e, he, i, hi, rfl⟩ := exists_seg_of_lt_sum hlt
  have hlen : e < counts.length := by rwa [List.length_map] at he
  have hrow : i < min (counts.getD e 0 - row0) tile := by rwa [getD_tileCounts] at hi
  rw [getElem?_tileSrc hlen hrow] at hx
  obtain rfl := Option.some.inj hx
  refine ⟨e, hlen, ?_, ?_, ?_, ?_, ?_⟩
  · rw [List.getElem?_map, List.getElem?_range hlt, Option.map_some, searchsorted_cumsum he hi]
  · rw [start_append_of_le he.le]
    omega
  · rw [start_append_of_le he, start_succ]
    omega
  · omega
  · rw [start_succ]
    omega

/-- No expert of a tile has more rows than the tile, and together they have its rows. -/
theorem rowTile_counts {counts : List ℕ} {tile row0 : ℕ} {r : RowTile}
    (hr : rowTile counts tile row0 = some r) :
    (∀ c ∈ r.tileEc, c ≤ tile) ∧ r.tileEc.sum = r.src.length := by
  rw [rowTile] at hr
  split_ifs at hr
  obtain rfl := (Option.some.inj hr).symm
  constructor
  · intro c hc
    rcases List.mem_append.mp hc with hc | hc
    · obtain ⟨c', -, rfl⟩ := List.mem_map.mp hc
      exact min_le_right _ _
    · rw [List.mem_singleton.mp hc]
      exact Nat.zero_le _
  · rw [tileSrc, List.length_map, List.length_range, List.sum_append]
    rfl

/-- **The tiles enumerate the sorted buffer once**: together they list every position, each
under the expert whose segment it lies in, and no expert has more rows in a tile than fit. -/
theorem rowTiles_enumerate (counts : List ℕ) (tile maxRows : ℕ) (htile : 1 ≤ tile)
    (hmax : counts.max? = some maxRows) :
    ((rowTiles counts tile maxRows).flatMap (·.src)).Perm (List.range counts.sum) ∧
      ∀ r ∈ rowTiles counts tile maxRows,
        (∀ j x, r.src[j]? = some x → ∃ e < counts.length, r.expertId[j]? = some e ∧
          start r.tileEc e ≤ j ∧ j < start r.tileEc (e + 1) ∧
          start counts e ≤ x ∧ x < start counts (e + 1)) ∧
        (∀ c ∈ r.tileEc, c ≤ tile) ∧ r.tileEc.sum = r.src.length := by
  constructor
  · refine rowTiles_perm htile fun e he => ?_
    rw [List.getD_eq_getElem _ _ he]
    exact (List.max?_eq_some_iff.mp hmax).2 _ (List.getElem_mem he)
  · intro r hr
    obtain ⟨t, -, ht⟩ := List.mem_filterMap.mp hr
    exact ⟨fun _ _ hx => rowTile_attribution ht hx, rowTile_counts ht⟩

/-- An expert of one row, one without rows, and one with a row more than two tiles hold. -/
theorem rowTiles_enumerate_uneven :
    [1, 0, 5].max? = some 5 ∧
      (rowTiles [1, 0, 5] 2 5).map (·.tileEc) = [[1, 0, 2, 0], [0, 0, 2, 0], [0, 0, 1, 0]] ∧
      ((rowTiles [1, 0, 5] 2 5).flatMap (·.src)).Perm (List.range 6) :=
  ⟨by decide, by decide, (rowTiles_enumerate [1, 0, 5] 2 5 (by decide) (by decide)).1⟩

/-! ### The launches -/

section Launches

variable {S P X I V W L : Type*} {T K : ℕ} [AddCommMonoid V] [CommMagma I] [SMul W V]
variable {ext : Ext S P X I V W L} {x2d : Fin T → X} {ids : Fin T → Fin K → ℤ}
  {weights : Fin T → Fin K → W} {inners : List (Pack S P)} {expertMap : Option ExpertMap}
  {limit : L} {r : Routing T W} {sorted : List (Fin T × Fin K)}

variable (ext x2d ids weights inners expertMap limit sorted) in
/-- The rows a tile adds. -/
def tileRows (tile row0 : ℕ) : List (Fin T × V) :=
  (List.range inners.length).flatMap fun e =>
    ((localRows ext x2d ids weights inners expertMap limit sorted e).drop row0).take tile

omit [AddCommMonoid V] in
theorem length_localRows
    (hr : r.Sorts weights (slotKey ids inners expertMap) inners.length sorted) {e : ℕ}
    (he : e < inners.length) :
    (localRows ext x2d ids weights inners expertMap limit sorted e).length
      = r.expertCount.getD e 0 := by
  rw [localRows, List.getElem?_eq_getElem he]
  simp only [Ext.expertRows, List.length_map, hr.length_assigned he]

omit [AddCommMonoid V] [CommMagma I] [SMul W V] in
/-- The loop launches the tiles that have rows. -/
theorem exl3MoeRowTiles_eq_foldl (ext : Ext S P X I V W L) (xh : Fin T → X) (out : Fin T → V)
    (counts : List ℕ) (tokenSorted : List (Fin T)) (weightSorted : List W) (tile : ℕ)
    (ptrs : List (Pack S P)) (limit : L) (maxRows : ℕ) :
    exl3MoeRowTiles ext xh out counts tokenSorted weightSorted tile ptrs limit maxRows
      = (rowTiles counts tile maxRows).foldl (fun out r =>
          exl3MoeLaunch ext xh out r.tileEc (indexSelect tokenSorted r.src)
            (indexSelect weightSorted r.src) tile ptrs limit) out := by
  rw [exl3MoeRowTiles, rowTiles, List.foldl_filterMap]
  refine List.foldl_ext _ _ _ fun o t _ => ?_
  simp only [rowTile]
  split_ifs <;> rfl

/-- The launch of a tile adds its rows: no expert of a tile has more rows than fit. -/
theorem launch_tile (hext : ext.Contract)
    (hr : r.Sorts weights (slotKey ids inners expertMap) inners.length sorted) (tile row0 : ℕ)
    (out : Fin T → V) :
    exl3MoeLaunch ext x2d out
        (((r.expertCount.take inners.length).map fun c => min (c - row0) tile) ++ [0])
        (indexSelect r.tokenSorted (tileSrc (r.expertCount.take inners.length) tile row0))
        (indexSelect r.weightSorted (tileSrc (r.expertCount.take inners.length) tile row0))
        tile inners limit
      = indexAdd out (tileRows ext x2d ids weights inners expertMap limit sorted tile row0) := by
  have hlen := length_counts_take hr
  have hsum : (r.expertCount.take inners.length).sum ≤ r.expertCount.sum := start_le_sum _ _
  have htok : (r.expertCount.take inners.length).sum ≤ r.tokenSorted.length := by
    rw [hr.tokens, List.length_map, ← hr.sum_counts]
    exact hsum
  have hwei : (r.expertCount.take inners.length).sum ≤ r.weightSorted.length := by
    rw [hr.weights, List.length_map, ← hr.sum_counts]
    exact hsum
  rw [exl3MoeLaunch, hext.moe]
  · congr 1
    refine List.flatMap_congr fun e he => ?_
    have he : e < inners.length := List.mem_range.mp he
    have he' : e < (r.expertCount.take inners.length).length := by rwa [hlen]
    have hfit : (((r.expertCount.take inners.length).map fun c => min (c - row0) tile)
        ++ [0]).getD e 0 ≤ tile := by
      rw [List.getD_append _ _ _ _ (by rwa [List.length_map]), getD_tileCounts]
      exact min_le_right _ _
    simp only [List.getElem?_eq_getElem he, hfit, ↓reduceIte, seg_tile htok tile row0 he',
      seg_tile hwei tile row0 he', localRows]
    rw [tileBlock, tileBlock, List.zip, ← List.take_zipWith, ← List.drop_zipWith, ← List.zip,
      seg_take he, seg_take he, hr.zip_seg he, Ext.expertRows, Ext.expertRows,
      List.map_take, List.map_drop]
  · constructor
    · rw [List.length_append, List.length_map, hlen]
      rfl
    · rw [length_tile htok]
      simp
    · rw [length_tile hwei]
      simp

omit [AddCommMonoid V] in
/-- A tile with no rows adds nothing. -/
theorem tileRows_eq_nil (hr : r.Sorts weights (slotKey ids inners expertMap) inners.length sorted)
    {tile row0 : ℕ} (htile : 1 ≤ tile)
    (h : ((r.expertCount.take inners.length).map fun c => min (c - row0) tile).sum = 0) :
    tileRows ext x2d ids weights inners expertMap limit sorted tile row0 = [] := by
  refine List.flatMap_eq_nil_iff.mpr fun e he => ?_
  have he : e < inners.length := List.mem_range.mp he
  have hzero := seg_le_sum ((r.expertCount.take inners.length).map fun c =>
    min (c - row0) tile) e
  rw [h, getD_tileCounts, getD_take he] at hzero
  have hlen : (localRows ext x2d ids weights inners expertMap limit sorted e).length
      = r.expertCount.getD e 0 := length_localRows hr he
  rw [List.drop_eq_nil_of_le (by omega), List.take_nil]

/-- The tiles up to the hottest expert add the rows of every local expert, once. -/
theorem exl3MoeRowTiles_eq (hext : ext.Contract)
    (hr : r.Sorts weights (slotKey ids inners expertMap) inners.length sorted) {tile maxRows : ℕ}
    (htile : 1 ≤ tile) (hmax : ∀ e < inners.length, r.expertCount.getD e 0 ≤ maxRows)
    (out : Fin T → V) :
    exl3MoeRowTiles ext x2d out (r.expertCount.take inners.length) r.tokenSorted r.weightSorted
        tile inners limit maxRows
      = indexAdd out (routedRows ext x2d ids weights inners expertMap limit fun _ => true) := by
  have hstep : ∀ (o : Fin T → V) (t : ℕ),
      (if ((r.expertCount.take inners.length).map fun c => min (c - t * tile) tile).sum = 0 then o
        else exl3MoeLaunch ext x2d o
          (((r.expertCount.take inners.length).map fun c => min (c - t * tile) tile) ++ [0])
          (indexSelect r.tokenSorted (tileSrc (r.expertCount.take inners.length) tile (t * tile)))
          (indexSelect r.weightSorted (tileSrc (r.expertCount.take inners.length) tile (t * tile)))
          tile inners limit)
        = indexAdd o (tileRows ext x2d ids weights inners expertMap limit sorted tile
            (t * tile)) := by
    intro o t
    split_ifs with h
    · rw [tileRows_eq_nil hr htile h, indexAdd_nil]
    · exact launch_tile hext hr tile (t * tile) o
  simp only [exl3MoeRowTiles, hstep]
  rw [foldl_indexAdd]
  refine indexAdd_perm _ ((flatMap_comm_perm _ _ _).trans ?_)
  refine (List.Perm.of_eq (List.flatMap_congr fun e he => ?_)).trans
    (localRows_perm ext x2d ids weights inners expertMap limit hr.perm fun _ => true)
  have he : e < inners.length := List.mem_range.mp he
  rw [if_pos rfl]
  refine flatMap_window _ ?_
  rw [length_localRows hr he]
  exact (hmax e he).trans (le_tiles_mul htile maxRows)

end Launches

end Glm53Serve.Exl3
