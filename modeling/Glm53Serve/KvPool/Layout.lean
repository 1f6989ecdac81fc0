import Mathlib
import Glm53Serve.Lib.MapM
import Glm53Serve.Lib.Rows

/-!
# The pool of KV blocks

The caches of the layers share one pool of blocks: a tensor is laid out for each MLA layer
and for each indexer layer, and the mamba, tail and drafter layers ride in them at other
blocks. `overlay/patch_glm5_drafter_group.py` adds the drafter's group, which gets tensors of
its own where its pages are not those of the MLA layers.

## The model

The checks of `_glm5_next_tensor_layout` on the mamba groups and on the drafter's, and the
three functions that read the layout, as patched. What they read of the groups besides is
given; `page_size_bytes` of a spec is a parameter.

## What is proved

* `tensors_perm` — the tensors hold every layer once.
* `sum_size` — their sizes are those of the blocks.
* `pool_accounting` — these, and that the three functions agree on the bytes of a block.
-/

namespace Glm53Serve.KvPool

/-- The exceptions of the functions. -/
inductive PyError where
  | assertionError
  | indexError
  | zeroDivisionError
  deriving DecidableEq

/-! ### The groups -/

/-- What is read of a `SlidingWindowSpec`. -/
structure SwaSpec where
  blockSize : ℕ
  pageSizePadded : Option ℕ
  /-- The bytes of a token, of the other fields. -/
  bytesPerToken : ℕ
  slidingWindow : ℕ
  deriving DecidableEq

variable {Name : Type}

/-- A group of mamba layers. -/
structure MambaGroup (Name : Type) where
  layerNames : List Name
  pageSizeBytes : ℕ

/-- The groups without the drafter's: the layers of each kind, and the pages of a block. -/
structure Groups (Name : Type) where
  mlaNames : List Name
  mlaBlock : ℕ
  mlaPage : ℕ
  idxNames : List Name
  idxPage : ℕ
  tailNames : List Name
  mambaGroups : List (MambaGroup Name)
  mlaBlock_pos : 0 < mlaBlock
  mlaPage_pos : 0 < mlaPage
  idxPage_pos : 0 < idxPage
  /-- `idx_pages.pop()` finds a page. -/
  idxNames_ne : idxNames ≠ []
  tailNames_length : tailNames = [] ∨ tailNames.length = idxNames.length
  mamba_length : ∀ group ∈ mambaGroups, group.layerNames.length ≤ mlaNames.length

/-- The drafter's group: its layers, and their specs. -/
structure DraftGroup (Name : Type) where
  kvCacheSpecs : List (Name × SwaSpec)
  kvCacheSpecs_ne : kvCacheSpecs ≠ []

/-- `layer_names`. -/
def DraftGroup.layerNames (d : DraftGroup Name) : List Name := d.kvCacheSpecs.map Prod.fst

/-! ### The layout -/

/-- What `_glm5_next_tensor_layout` returns, less the attention group and the page of the tails. -/
structure Layout (Name : Type) where
  groups : Groups Name
  draftGroup : Option (DraftGroup Name)

variable (pageSizeBytes : SwaSpec → Except PyError ℕ)

/-- A padded page is one of 64 tokens, padded to the page of the MLA layers. -/
def paddedWell (g : Groups Name) (d : DraftGroup Name) : Bool :=
  !(d.kvCacheSpecs.any fun p => p.2.pageSizePadded.isSome) ||
    !(d.kvCacheSpecs.any fun p => p.2.blockSize ≠ 64 || p.2.pageSizePadded ≠ some g.mlaPage)

/-- The checks on the drafter's group. -/
def draftAccepted (g : Groups Name) (d : DraftGroup Name) : Except PyError Bool :=
  (d.kvCacheSpecs.mapM fun p => pageSizeBytes p.2).map fun pages =>
    let draftPages := pages.dedup
    draftPages.length = 1 && paddedWell g d &&
      !(draftPages.head? = some g.mlaPage && g.mlaNames.length < d.layerNames.length)

/-- `_glm5_next_tensor_layout(groups)`. -/
def tensorLayout (g : Groups Name) (draftGroup : Option (DraftGroup Name)) :
    Except PyError (Option (Layout Name)) :=
  if g.mambaGroups.any fun group => group.pageSizeBytes ≠ g.mlaPage then .ok none
  else
    match draftGroup with
    | none => .ok (some ⟨g, none⟩)
    | some d => (draftAccepted pageSizeBytes g d).map fun ok => if ok then some ⟨g,
        some d⟩ else none

/-- The page of the drafter's first layer. -/
def DraftGroup.draftPage (d : DraftGroup Name) : Except PyError ℕ :=
  pageSizeBytes (d.kvCacheSpecs.head d.kvCacheSpecs_ne).2

/-! ### The bytes of a block -/

/-- The bytes of a block in the tensors of the MLA and the indexer layers. -/
def Groups.perBlock (g : Groups Name) : ℕ :=
  g.mlaNames.length * g.mlaPage + g.idxNames.length * g.idxPage

/-- `_pool_bytes_per_block(groups)`. -/
def poolBytesPerBlock (l : Layout Name) : Except PyError ℕ :=
  match l.draftGroup with
  | none => .ok l.groups.perBlock
  | some d => (d.draftPage pageSizeBytes).map fun draftPage =>
    if draftPage ≠ l.groups.mlaPage then l.groups.perBlock + d.layerNames.length * draftPage
    else l.groups.perBlock

/-- `_max_memory_usage_bytes_from_groups`, of the blocks the attention and mamba groups need, and
the pages the drafter's needs. -/
def maxMemoryUsageBytes (l : Layout Name) (attnBlocks draftUsagePages : ℕ) : Except PyError ℕ :=
  let blocksNeeded := if l.groups.tailNames ≠ [] then attnBlocks + 1 else attnBlocks
  match l.draftGroup with
  | none => .ok (blocksNeeded * l.groups.perBlock)
  | some d => (d.draftPage pageSizeBytes).map fun draftPage =>
    let perBlock :=
      if draftPage ≠ l.groups.mlaPage then l.groups.perBlock + d.layerNames.length * draftPage
      else l.groups.perBlock
    (blocksNeeded + draftUsagePages) * perBlock

/-! ### The tensors -/

/-- A `KVCacheTensor`. -/
structure KVCacheTensor (Name : Type) where
  size : ℤ
  sharedBy : List Name

/-- `draft_names`, `draft_page` and `draft_shared`. -/
structure Draft (Name : Type) where
  draftNames : List Name
  draftPage : ℕ
  draftShared : Bool

/-- The drafter as the layout has it. -/
def Layout.draft (l : Layout Name) : Except PyError (Draft Name) :=
  match l.draftGroup with
  | none => .ok ⟨[], 0, false⟩
  | some d => (d.draftPage pageSizeBytes).map fun draftPage =>
    ⟨d.layerNames, draftPage, draftPage = l.groups.mlaPage⟩

/-- `per_block`. -/
def Layout.perBlock (l : Layout Name) (d : Draft Name) : ℕ :=
  if d.draftNames ≠ [] ∧ d.draftShared = false then
    l.groups.perBlock + d.draftNames.length * d.draftPage
  else l.groups.perBlock

/-- The tensors of the MLA layers. -/
def mlaTensors (g : Groups Name) (d : Draft Name) (numBlocks : ℤ) : List (KVCacheTensor Name) :=
  g.mlaNames.zipIdx.map fun p =>
    ⟨g.mlaPage * numBlocks, p.1 :: g.mambaGroups.filterMap (fun group => group.layerNames[p.2]?) ++
      if d.draftShared then d.draftNames[p.2]?.toList else []⟩

/-- The element of a list at an index. -/
def item (names : List Name) (i : ℕ) : Except PyError Name :=
  names[i]?.elim (.error .indexError) .ok

/-- The tensor of an indexer layer. -/
def idxTensor (g : Groups Name) (numBlocks : ℤ) (i : ℕ) : Except PyError (KVCacheTensor Name) :=
  (item g.idxNames i).bind fun idxName =>
    if g.tailNames = [] then .ok ⟨g.idxPage * numBlocks, [idxName]⟩
    else (item g.tailNames i).map fun tailName => ⟨g.idxPage * numBlocks, [idxName, tailName]⟩

/-- The tensors of a drafter of its own. -/
def draftTensors (d : Draft Name) (numBlocks : ℤ) : List (KVCacheTensor Name) :=
  (if d.draftShared then [] else d.draftNames).map fun name => ⟨d.draftPage * numBlocks, [name]⟩

/-- What `get_kv_cache_config_from_groups` returns. -/
structure KVCacheConfig (Name : Type) where
  numBlocks : ℤ
  kvCacheTensors : List (KVCacheTensor Name)

/-- `get_kv_cache_config_from_groups`, of the memory that is available. -/
def kvCacheConfig (l : Layout Name) (availableMemory : ℤ) : Except PyError (KVCacheConfig Name) :=
  (l.draft pageSizeBytes).bind fun d =>
    if l.perBlock d = 0 then .error .zeroDivisionError
    else
      let numBlocks := availableMemory / l.perBlock d
      ((List.range l.groups.idxNames.length).mapM (idxTensor l.groups numBlocks)).map
          fun idxTensors =>
        ⟨numBlocks, mlaTensors l.groups d numBlocks ++ idxTensors ++ draftTensors d numBlocks⟩

/-! ### What a layout says of the drafter -/

/-- The layers of a layout. -/
def Layout.names (l : Layout Name) : List Name :=
  l.groups.mlaNames ++ l.groups.mambaGroups.flatMap MambaGroup.layerNames ++ l.groups.idxNames ++
    l.groups.tailNames ++ l.draftGroup.elim [] DraftGroup.layerNames

/-- The blocks a layout needs. -/
def Layout.blocksNeeded (l : Layout Name) (attnBlocks draftUsagePages : ℕ) : ℕ :=
  attnBlocks + (if l.groups.tailNames ≠ [] then 1 else 0) + if l.draftGroup.isSome then
    draftUsagePages else 0

/-- The drafter, as the three functions read it of a layout. -/
structure Fits (l : Layout Name) (d : Draft Name) : Prop where
  draft : l.draft pageSizeBytes = .ok d
  draftNames : d.draftNames = l.draftGroup.elim [] DraftGroup.layerNames
  /-- Layers that ride in the MLA tensors find one each. -/
  shared : d.draftShared = true → d.draftNames.length ≤ l.groups.mlaNames.length
  pool : poolBytesPerBlock pageSizeBytes l = .ok (l.perBlock d)
  usage : ∀ attnBlocks draftUsagePages,
    maxMemoryUsageBytes pageSizeBytes l attnBlocks draftUsagePages =
      .ok (l.blocksNeeded attnBlocks draftUsagePages * l.perBlock d)

variable {pageSizeBytes}

/-- A layout that is accepted is the one of its groups, and the checks of the drafter's passed. -/
theorem tensorLayout_ok {g : Groups Name} {draftGroup : Option (DraftGroup Name)} {l : Layout Name}
    (h : tensorLayout pageSizeBytes g draftGroup = .ok (some l)) :
    l = ⟨g, draftGroup⟩ ∧ ∀ d, draftGroup = some d →
      draftAccepted pageSizeBytes g d = .ok true := by
  unfold tensorLayout at h
  split_ifs at h
  · cases h
  · rcases draftGroup with _ | d
    · cases h
      exact ⟨rfl, by simp⟩
    · rcases ha : draftAccepted pageSizeBytes g d with e | _ | _
      · simp [ha, Except.map] at h
      · simp [ha, Except.map] at h
      · simp only [ha, Except.map, if_true, Except.ok.injEq, Option.some.injEq] at h
        exact ⟨h.symm, by rintro d' ⟨⟩; exact ha⟩

/-- The checks on the drafter's group: its pages are of one size, and as many MLA tensors as it has
layers are there if it rides in them. -/
theorem draftAccepted_iff {g : Groups Name} {d : DraftGroup Name} :
    draftAccepted pageSizeBytes g d = .ok true ↔
      ∃ page, (∀ p ∈ d.kvCacheSpecs, pageSizeBytes p.2 = .ok page) ∧ paddedWell g d = true ∧
        (page = g.mlaPage → d.layerNames.length ≤ g.mlaNames.length) := by
  unfold draftAccepted
  constructor
  · intro h
    rcases hm : d.kvCacheSpecs.mapM fun p => pageSizeBytes p.2 with e | pages
    · rw [hm] at h
      cases h
    · rw [hm] at h
      simp only [Except.map, Except.ok.injEq, Bool.and_eq_true, decide_eq_true_eq,
        Bool.not_eq_true', Bool.and_eq_false_iff, decide_eq_false_iff_not, not_lt] at h
      obtain ⟨⟨hone, hpad⟩, hlen⟩ := h
      obtain ⟨page, hpage⟩ := List.length_eq_one_iff.mp hone
      refine ⟨page, fun p hp => ?_, hpad, fun heq => hlen.resolve_left fun hne =>
        hne (by simp [hpage, heq])⟩
      obtain ⟨i, hi, rfl⟩ := List.mem_iff_getElem.mp hp
      have hall := Except.mapM_ok_iff.mp hm
      have hi' : i < pages.length := hall.length_eq ▸ hi
      have hmem : pages[i] ∈ pages.dedup := List.mem_dedup.mpr (List.getElem_mem hi')
      rw [hpage, List.mem_singleton] at hmem
      rw [← hmem]
      exact List.Forall₂.get hall hi hi'
  · rintro ⟨page, hpage, hpad, hlen⟩
    rw [Except.mapM_eq_map (g := fun _ => page) hpage]
    have hdedup : (d.kvCacheSpecs.map fun _ => page).dedup = [page] := by
      rw [List.map_const']
      exact List.replicate_dedup (List.length_pos_iff.mpr d.kvCacheSpecs_ne).ne'
    simp only [Except.map, hdedup, hpad]
    by_cases heq : page = g.mlaPage
    · have := hlen heq
      simp [heq, this]
    · simp [heq]

/-- **The three functions agree** on the drafter of a layout that is accepted. -/
theorem exists_fits {g : Groups Name} {draftGroup : Option (DraftGroup Name)} {l : Layout Name}
    (h : tensorLayout pageSizeBytes g draftGroup = .ok (some l)) : ∃ d, Fits pageSizeBytes l d := by
  obtain ⟨rfl, haccepted⟩ := tensorLayout_ok h
  rcases draftGroup with _ | d
  · refine ⟨⟨[], 0, false⟩, rfl, rfl, by simp, rfl, fun attnBlocks draftUsagePages => ?_⟩
    simp only [maxMemoryUsageBytes, Layout.blocksNeeded, Layout.perBlock]
    split_ifs <;> simp_all
  · obtain ⟨page, hpage, -, hlen⟩ := draftAccepted_iff.mp (haccepted d rfl)
    have hd : d.draftPage pageSizeBytes = .ok page := hpage _ (List.head_mem _)
    have hne : d.layerNames ≠ [] := by simpa [DraftGroup.layerNames] using d.kvCacheSpecs_ne
    have hblock : Layout.perBlock ⟨g, some d⟩ ⟨d.layerNames, page, decide (page = g.mlaPage)⟩ =
        if page ≠ g.mlaPage then g.perBlock + d.layerNames.length * page else g.perBlock := by
      simp [Layout.perBlock, hne]
    refine ⟨⟨d.layerNames, page, decide (page = g.mlaPage)⟩, ?_, rfl, fun hs =>
      hlen (of_decide_eq_true hs),
      ?_, fun attnBlocks draftUsagePages => ?_⟩
    · simp only [Layout.draft, hd, Except.map]
    · simp only [poolBytesPerBlock, hd, Except.map, hblock]
    · simp only [maxMemoryUsageBytes, hd, Except.map, hblock, Layout.blocksNeeded,
        Option.isSome_some,
        if_true]
      split_ifs <;> rfl

/-! ### The layers of the tensors -/

/-- The rows of the MLA tensors: the MLA layers, each mamba group, and a drafter that rides. -/
def mlaRows (g : Groups Name) (d : Draft Name) : List (List Name) :=
  g.mlaNames :: g.mambaGroups.map MambaGroup.layerNames ++
    [if d.draftShared then d.draftNames else []]

theorem mlaTensors_eq (g : Groups Name) (d : Draft Name) (numBlocks : ℤ) :
    mlaTensors g d numBlocks = (List.range g.mlaNames.length).map fun i =>
      ⟨g.mlaPage * numBlocks, Rows.column (mlaRows g d) i⟩ := by
  have hrange : List.range g.mlaNames.length = g.mlaNames.zipIdx.map Prod.snd := by
    rw [List.zipIdx_map_snd, List.range_eq_range']
  rw [mlaTensors, hrange, List.map_map]
  refine List.map_congr_left fun p hp => ?_
  have hname : g.mlaNames[p.2]? = some p.1 := List.mem_zipIdx_iff_getElem?.mp hp
  simp only [Function.comp, mlaRows, List.cons_append, Rows.column_cons, hname, Option.toList_some]
  congr 1
  simp only [Rows.column, List.filterMap_append, List.filterMap_map, List.nil_append]
  congr 2
  cases d.draftShared <;> simp [List.filterMap_cons]
  cases d.draftNames[p.2]? <;> rfl

/-- The MLA tensors hold the MLA layers, the mamba layers and a drafter that rides. -/
theorem mlaTensors_perm {l : Layout Name} {d : Draft Name} (h : Fits pageSizeBytes l d)
    (numBlocks : ℤ) :
    ((mlaTensors l.groups d numBlocks).flatMap KVCacheTensor.sharedBy).Perm
      (l.groups.mlaNames ++ l.groups.mambaGroups.flatMap MambaGroup.layerNames ++
        if d.draftShared then d.draftNames else []) := by
  have hrows : ∀ row ∈ mlaRows l.groups d, row.length ≤ l.groups.mlaNames.length := by
    intro row hrow
    simp only [mlaRows, List.cons_append, List.mem_cons, List.mem_append, List.mem_map,
      List.not_mem_nil, or_false] at hrow
    rcases hrow with rfl | ⟨group, hgroup, rfl⟩ | rfl
    · exact le_rfl
    · exact l.groups.mamba_length group hgroup
    · split_ifs with hs
      · exact h.shared hs
      · exact Nat.zero_le _
  have hperm := Rows.flatMap_column_perm hrows
  rw [mlaTensors_eq, List.flatMap_map]
  simpa [mlaRows, List.flatMap_def] using hperm

/-- The rows of the indexer tensors. -/
def idxRows (g : Groups Name) : List (List Name) := [g.idxNames, g.tailNames]

theorem idxTensors_eq (g : Groups Name) (numBlocks : ℤ) :
    (List.range g.idxNames.length).mapM (idxTensor g numBlocks) =
      .ok ((List.range g.idxNames.length).map fun i =>
        ⟨g.idxPage * numBlocks, Rows.column (idxRows g) i⟩) := by
  refine Except.mapM_eq_map fun i hi => ?_
  have hi' : i < g.idxNames.length := List.mem_range.mp hi
  simp only [idxTensor, item, idxRows, Rows.column_cons, List.getElem?_eq_getElem hi', Option.elim,
    Except.bind]
  rcases g.tailNames_length with htail | htail
  · simp [htail, Rows.column]
  · have hne : g.tailNames ≠ [] := by
      intro hnil
      rw [hnil] at htail
      exact absurd htail.symm (Nat.ne_of_gt (Nat.lt_of_le_of_lt (Nat.zero_le i) hi'))
    simp [hne, List.getElem?_eq_getElem (htail ▸ hi'), Except.map, Rows.column]

/-- The tensors of a layout. -/
def tensors (g : Groups Name) (d : Draft Name) (numBlocks : ℤ) : List (KVCacheTensor Name) :=
  mlaTensors g d numBlocks ++
    ((List.range g.idxNames.length).map fun i =>
      ⟨g.idxPage * numBlocks, Rows.column (idxRows g) i⟩) ++
    draftTensors d numBlocks

/-- The indexer tensors hold the indexer and the tail layers. -/
theorem idxTensors_perm (g : Groups Name) (numBlocks : ℤ) :
    (((List.range g.idxNames.length).map fun i =>
        (⟨g.idxPage * numBlocks, Rows.column (idxRows g) i⟩ : KVCacheTensor Name)).flatMap
      KVCacheTensor.sharedBy).Perm (g.idxNames ++ g.tailNames) := by
  have hrows : ∀ row ∈ idxRows g, row.length ≤ g.idxNames.length := by
    intro row hrow
    simp only [idxRows, List.mem_cons, List.not_mem_nil, or_false] at hrow
    rcases hrow with rfl | rfl
    · exact le_rfl
    · rcases g.tailNames_length with h | h
      · simp [h]
      · exact h.le
  have hperm := Rows.flatMap_column_perm hrows
  rw [List.flatMap_map]
  simpa [idxRows] using hperm

/-- **The tensors hold every layer once.** -/
theorem tensors_perm {l : Layout Name} {d : Draft Name} (h : Fits pageSizeBytes l d)
    (numBlocks : ℤ) :
    ((tensors l.groups d numBlocks).flatMap KVCacheTensor.sharedBy).Perm l.names := by
  have hdraft : (draftTensors d numBlocks).flatMap KVCacheTensor.sharedBy =
      if d.draftShared then [] else d.draftNames := by
    rw [draftTensors, List.flatMap_map]
    exact List.flatMap_singleton' _
  have hnames : l.names = l.groups.mlaNames ++ l.groups.mambaGroups.flatMap MambaGroup.layerNames ++
      (l.groups.idxNames ++ l.groups.tailNames) ++ d.draftNames := by
    rw [Layout.names, ← h.draftNames, List.append_assoc (_ ++ _) l.groups.idxNames]
  have hmla := mlaTensors_perm h numBlocks
  have hidx := idxTensors_perm l.groups numBlocks
  rw [tensors, List.flatMap_append, List.flatMap_append, hdraft, hnames]
  refine ((hmla.append hidx).append_right _).trans ?_
  cases d.draftShared
  · simp
  · -- A drafter that rides comes before the indexer layers.
    simp only [if_true, List.append_nil, List.append_assoc]
    exact (List.perm_append_comm.append_left _).append_left _ |>.trans (by simp)

/-- **The sizes of the tensors** are those of the blocks. -/
theorem sum_size (l : Layout Name) (d : Draft Name) (numBlocks : ℤ) :
    ((tensors l.groups d numBlocks).map KVCacheTensor.size).sum = l.perBlock d * numBlocks := by
  have hdraft : ((draftTensors d numBlocks).map KVCacheTensor.size).sum =
      (if d.draftShared then 0 else d.draftNames.length) * (d.draftPage * numBlocks) := by
    rw [draftTensors, List.map_map]
    cases d.draftShared <;> simp [Function.comp_def, List.map_const']
  rw [tensors, mlaTensors_eq]
  simp only [List.map_append, List.sum_append, List.map_map, Function.comp_def, List.map_const',
    List.sum_replicate, List.length_range, nsmul_eq_mul, hdraft]
  unfold Layout.perBlock Groups.perBlock
  rcases d with ⟨names, page, _ | _⟩ <;> rcases names with _ | ⟨name, names⟩ <;> simp <;> ring

theorem perBlock_pos (l : Layout Name) (d : Draft Name) : 0 < l.perBlock d := by
  have hidx : 0 < l.groups.idxNames.length * l.groups.idxPage :=
    Nat.mul_pos (List.length_pos_iff.mpr l.groups.idxNames_ne) l.groups.idxPage_pos
  unfold Layout.perBlock Groups.perBlock
  split_ifs <;> omega

/-- The configuration of a layout. -/
theorem kvCacheConfig_eq {l : Layout Name} {d : Draft Name} (h : Fits pageSizeBytes l d)
    (availableMemory : ℤ) : kvCacheConfig pageSizeBytes l availableMemory =
      .ok ⟨availableMemory / l.perBlock d,
        tensors l.groups d (availableMemory / l.perBlock d)⟩ := by
  simp only [kvCacheConfig, h.draft, Except.bind, (perBlock_pos l d).ne', if_false,
    idxTensors_eq, Except.map,
    tensors]

/-- The accounting of a pool: the three functions have the same bytes for a block, the tensors are
as large as the blocks, within the memory available, and every layer is in one of them. -/
structure Accounted [DecidableEq Name] (pageSizeBytes : SwaSpec → Except PyError ℕ)
    (l : Layout Name)
    (availableMemory : ℤ) (config : KVCacheConfig Name) (d : Draft Name) : Prop where
  returned : kvCacheConfig pageSizeBytes l availableMemory = .ok config
  drafter : l.draft pageSizeBytes = .ok d
  numBlocks : config.numBlocks = availableMemory / l.perBlock d
  pool : poolBytesPerBlock pageSizeBytes l = .ok (l.perBlock d)
  usage : ∀ attnBlocks draftUsagePages,
    maxMemoryUsageBytes pageSizeBytes l attnBlocks draftUsagePages =
      .ok (l.blocksNeeded attnBlocks draftUsagePages * l.perBlock d)
  size : (config.kvCacheTensors.map KVCacheTensor.size).sum = l.perBlock d * config.numBlocks
  within : (config.kvCacheTensors.map KVCacheTensor.size).sum ≤ availableMemory
  once : ∀ name ∈ l.names, (config.kvCacheTensors.filter fun t => name ∈ t.sharedBy).length = 1

/-- **The pool is accounted for**, of every layout that is accepted. -/
theorem pool_accounting [DecidableEq Name] {g : Groups Name} {draftGroup : Option (DraftGroup Name)}
    {l : Layout Name} (h : tensorLayout pageSizeBytes g draftGroup = .ok (some l))
    (hnames : l.names.Nodup)
    (availableMemory : ℤ) : ∃ config d, Accounted pageSizeBytes l availableMemory config d := by
  obtain ⟨d, hd⟩ := exists_fits h
  have hperm := tensors_perm hd (availableMemory / l.perBlock d)
  refine ⟨_, d, kvCacheConfig_eq hd availableMemory, hd.draft, rfl, hd.pool, hd.usage,
    sum_size l d _, ?_,
    fun name hname => ?_⟩
  · rw [sum_size]
    exact Int.mul_ediv_self_le (Int.natCast_ne_zero.mpr (perBlock_pos l d).ne')
  · have hone := Rows.length_filter_mem (a := name) (hperm.nodup_iff.mpr hnames)
      (hperm.mem_iff.mpr hname)
    rw [List.filter_map, List.length_map] at hone
    exact hone

/-! ### A drafter with tensors of its own -/

/-- `page_size_bytes`, which asserts that a padded page holds the real one. -/
def assertedPage (spec : SwaSpec) : Except PyError ℕ :=
  match spec.pageSizePadded with
  | none => .ok (spec.blockSize * spec.bytesPerToken)
  | some page =>
    if spec.blockSize * spec.bytesPerToken ≤ page then .ok page else .error .assertionError

/-- Two MLA layers, an indexer with its tail, and two mamba layers. -/
def smallGroups : Groups ℕ where
  mlaNames := [0, 1]
  mlaBlock := 64
  mlaPage := 640
  idxNames := [2]
  idxPage := 80
  tailNames := [3]
  mambaGroups := [⟨[4, 5], 640⟩]
  mlaBlock_pos := by decide
  mlaPage_pos := by decide
  idxPage_pos := by decide
  idxNames_ne := by decide
  tailNames_length := .inr rfl
  mamba_length := by decide

/-- A drafter of three layers, of pages larger than those of the MLA layers. -/
def smallDraft : DraftGroup ℕ where
  kvCacheSpecs := [6, 7, 8].map fun name => (name, ⟨64, none, 16, 2048⟩)
  kvCacheSpecs_ne := by decide

theorem pool_accounting_standalone :
    ∃ config d, Accounted assertedPage ⟨smallGroups, some smallDraft⟩ 100000 config d :=
  pool_accounting (show tensorLayout assertedPage smallGroups (some smallDraft) =
    .ok (some _) from rfl) (by decide) 100000

end Glm53Serve.KvPool
