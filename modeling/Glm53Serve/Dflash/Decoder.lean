import Glm53Serve.Dflash.Draft
import Glm53Serve.Dflash.GroupedConv
import Glm53Serve.Lib.Blocks

/-!
# The decoder layers of the drafter

`DFlash2Qwen3DecoderLayer.forward` of `overlay/qwen3_dflash2.py` puts a grouped convolution before
and after the attention and before and after the MLP. All of it runs over one buffer that holds
the query rows of every request, `1 + num_speculative_tokens` rows each.

## The model

A layer takes the buffer of hidden states and that of the residual. The norms and the MLP map
every row by itself. The attention is a parameter: it reads of a row what `Position` stands for (its
position and the cache of its request), and it keeps the requests apart, which is what its metadata
is for. The layers are applied one after the other, and `readout` stands for the norm at the end.

## What is proved

* `taps_le_of_some`, `conv_same` — the convolution, wherever the block stands in the buffer.
* `forward_same` — a layer keeps the requests apart.
* `layers_same` — so does any number of layers.
* `draft_isolated` — so a request is drafted the same whoever else is in the batch.
-/

namespace Glm53Serve.Dflash

variable {K : Type*} [Semiring K] {numGroups groupSize : ℕ}

/-! ### The convolution of a block -/

section
variable {size b b' : ℕ}

/-- A convolution that returns has no more taps than the buffer can be shifted by. -/
theorem taps_le_of_some {hiddenStates output : List (Channels K numGroups groupSize)}
    {delta : ℕ → ℕ → Fin numGroups → K} {base : ℕ → Channels K numGroups groupSize} {taps : ℕ}
    (hne : hiddenStates ≠ []) (h : groupedConv hiddenStates delta base size taps = some output) :
    1 ≤ taps ∧ taps - 1 ≤ hiddenStates.length := by
  have htaps : 1 ≤ taps := by
    by_contra h0
    rw [groupedConv, if_pos (by omega)] at h
    cases h
  refine ⟨htaps, ?_⟩
  rw [groupedConv, if_neg (by omega)] at h
  obtain ⟨_, hfold, -⟩ := Option.map_eq_some_iff.mp h
  rcases Nat.eq_zero_or_pos (taps - 1) with h0 | hpos
  · omega
  -- the last turn shifts the farthest
  obtain ⟨last, hlast⟩ := Nat.exists_eq_succ_of_ne_zero hpos.ne'
  rw [hlast, Nat.succ_eq_add_one, List.range'_1_concat, List.foldlM_append] at hfold
  obtain ⟨before, -, hturn⟩ := Option.bind_eq_some_iff.mp hfold
  obtain ⟨after, hturn, -⟩ := Option.bind_eq_some_iff.mp hturn
  rw [addTap] at hturn
  split_ifs at hturn with hfits
  rcases hfits with hlen | ⟨hnil, -⟩
  · simp only [shifted, List.length_append, List.length_replicate, List.length_take,
      List.length_map] at hlen
    omega
  · exact absurd (List.map_eq_nil_iff.mp hnil) hne

theorem ne_nil_of_full {α : Type*} {l : List α} (hsize : 1 ≤ size) (h : (b + 1) * size ≤ l.length) :
    l ≠ [] := by
  rintro rfl
  rw [Nat.succ_mul, List.length_nil] at h
  omega

/-- A block of the output depends on this block of the input, wherever it stands. -/
theorem conv_same {hiddenStates hiddenStates' output output' :
    List (Channels K numGroups groupSize)}
    {delta delta' : ℕ → ℕ → Fin numGroups → K}
    {base : ℕ → Channels K numGroups groupSize} {taps : ℕ}
    (hsize : 1 ≤ size) (hsame : Blocks.Same size hiddenStates hiddenStates' b b')
    (hdelta : ∀ i < size, delta (b * size + i) = delta' (b' * size + i))
    (h : groupedConv hiddenStates delta base size taps = some output)
    (h' : groupedConv hiddenStates' delta' base size taps = some output') :
    Blocks.Same size output output' b b' := by
  obtain ⟨htaps, hrows⟩ := taps_le_of_some (ne_nil_of_full hsize hsame.full) h
  obtain ⟨-, hrows'⟩ := taps_le_of_some (ne_nil_of_full hsize hsame.full') h'
  rw [groupedConv_eq hiddenStates delta base hsize htaps hrows, Option.some.injEq] at h
  rw [groupedConv_eq hiddenStates' delta' base hsize htaps hrows', Option.some.injEq] at h'
  subst h h'
  refine Blocks.same_of_getD (d := 0) (by simpa using hsame.full) (by simpa using hsame.full')
    fun i hi => ?_
  rw [getD_mapIdx _ _ (Blocks.lt_of_full hsame.full hi),
    getD_mapIdx _ _ (Blocks.lt_of_full hsame.full' hi)]
  funext c
  have hmod : ∀ k, (k * size + i) % size = i := fun k => by
    rw [Nat.mul_comm, Nat.mul_add_mod, Nat.mod_eq_of_lt hi]
  rw [convRow, convRow, hmod, hmod]
  refine Finset.sum_congr rfl fun tap htap => ?_
  have hle : tap ≤ i := (Nat.le_of_lt_succ (Finset.mem_range.mp htap)).trans (Nat.min_le_right _ _)
  rw [hdelta i hi, Nat.add_sub_assoc hle, Nat.add_sub_assoc hle,
    hsame.getD ((Nat.sub_le i tap).trans_lt hi)]

variable (m : GroupedConv K numGroups groupSize)

theorem prepare_same {hiddenStates hiddenStates' : List (Channels K numGroups groupSize)}
    {prepared prepared' : List (Channels K numGroups groupSize) × (ℕ → ℕ → Fin numGroups → K)}
    (hm : m.blockSize = size) (hsize : 1 ≤ size)
    (hsame : Blocks.Same size hiddenStates hiddenStates' b b')
    (h : m.prepare hiddenStates = some prepared) (h' : m.prepare hiddenStates' = some prepared') :
    Blocks.Same size prepared.1 prepared'.1 b b' ∧
      ∀ i < size, prepared.2 (b * size + i) = prepared'.2 (b' * size + i) := by
  subst hm
  obtain ⟨output, hout, rfl⟩ := Option.map_eq_some_iff.mp h
  obtain ⟨output', hout', rfl⟩ := Option.map_eq_some_iff.mp h'
  have hcoefficients : ∀ side, ∀ i < m.blockSize, m.coefficients hiddenStates side
    (b * m.blockSize + i) =
      m.coefficients hiddenStates' side (b' * m.blockSize + i) := by
    intro side i hi
    funext tap g
    rw [GroupedConv.coefficients, GroupedConv.coefficients, hsame.getD hi]
  exact ⟨conv_same hsize hsame (hcoefficients 0) hout hout', hcoefficients 1⟩

theorem finish_same {hiddenStates hiddenStates' output output' :
    List (Channels K numGroups groupSize)}
    {coefficients coefficients' : ℕ → ℕ → Fin numGroups → K}
    (hm : m.blockSize = size) (hsize : 1 ≤ size)
    (hsame : Blocks.Same size hiddenStates hiddenStates' b b')
    (hcoefficients : ∀ i < size, coefficients (b * size + i) = coefficients' (b' * size + i))
    (h : m.finish hiddenStates coefficients = some output)
    (h' : m.finish hiddenStates' coefficients' = some output') :
    Blocks.Same size output output' b b' := by
  subst hm
  exact conv_same hsize hsame hcoefficients h h'

end

/-! ### The layer -/

/-- The attention over a buffer of blocks, which keeps the blocks apart. -/
structure Attention (Position X : Type*) (size : ℕ) where
  selfAttn : List Position → List X → List X
  apart : ∀ {positions positions' : List Position} {hiddenStates hiddenStates' : List X} {b b' : ℕ},
    Blocks.Same size positions positions' b b' → Blocks.Same size hiddenStates hiddenStates' b b' →
      Blocks.Same size (selfAttn positions hiddenStates) (selfAttn positions' hiddenStates') b b'

/-- A `DFlash2Qwen3DecoderLayer`. Both convolutions are made of the same `conv_args`. -/
structure DecoderLayer (Position K : Type*) [Semiring K] (numGroups groupSize blockSize : ℕ) where
  /-- `input_layernorm(hidden_states)` of a row. -/
  inputLayernorm : Channels K numGroups groupSize → Channels K numGroups groupSize
  /-- `input_layernorm(hidden_states, residual)` of a row. -/
  inputLayernormAdd : Channels K numGroups groupSize → Channels K numGroups groupSize →
    Channels K numGroups groupSize × Channels K numGroups groupSize
  attentionConv : GroupedConv K numGroups groupSize
  attention : Attention Position (Channels K numGroups groupSize) blockSize
  /-- `post_attention_layernorm(hidden_states, residual)` of a row. -/
  postAttentionLayernorm : Channels K numGroups groupSize → Channels K numGroups groupSize →
    Channels K numGroups groupSize × Channels K numGroups groupSize
  mlpConv : GroupedConv K numGroups groupSize
  /-- `mlp` of a row. -/
  mlp : Channels K numGroups groupSize → Channels K numGroups groupSize
  attentionConv_blockSize : attentionConv.blockSize = blockSize
  mlpConv_blockSize : mlpConv.blockSize = blockSize

variable {Position : Type*} {blockSize : ℕ}

/-- The hidden states and the residual. -/
abbrev Stream (K : Type*) (numGroups groupSize : ℕ) :=
  List (Channels K numGroups groupSize) × List (Channels K numGroups groupSize)

/-- A norm that adds the residual, row by row: what is normed and the new residual. -/
def addNorm (norm : Channels K numGroups groupSize → Channels K numGroups groupSize →
      Channels K numGroups groupSize × Channels K numGroups groupSize)
    (hiddenStates residual : List (Channels K numGroups groupSize)) :
    Stream K numGroups groupSize :=
  (List.zipWith (fun h r => (norm h r).1) hiddenStates residual,
    List.zipWith (fun h r => (norm h r).2) hiddenStates residual)

/-- The norm at the head of a layer: what is normed, and the residual from there on. -/
def DecoderLayer.inputNorm (layer : DecoderLayer Position K numGroups groupSize blockSize)
    (hiddenStates : List (Channels K numGroups groupSize)) :
    Option (List (Channels K numGroups groupSize)) → Stream K numGroups groupSize
  | some residual => addNorm layer.inputLayernormAdd hiddenStates residual
  | none => (hiddenStates.map layer.inputLayernorm, hiddenStates)

/-- `forward(positions, hidden_states, residual)`. -/
def DecoderLayer.forward (layer : DecoderLayer Position K numGroups groupSize blockSize)
    (positions : List Position)
    (hiddenStates : List (Channels K numGroups groupSize))
    (residual : Option (List (Channels K numGroups groupSize))) :
    Option (Stream K numGroups groupSize) := do
  let (hiddenStates, residual) := layer.inputNorm hiddenStates residual
  let (hiddenStates, coefficients) ← layer.attentionConv.prepare hiddenStates
  let hiddenStates := layer.attention.selfAttn positions hiddenStates
  let hiddenStates ← layer.attentionConv.finish hiddenStates coefficients
  let (hiddenStates, residual) := addNorm layer.postAttentionLayernorm hiddenStates residual
  let (hiddenStates, coefficients) ← layer.mlpConv.prepare hiddenStates
  let hiddenStates := hiddenStates.map layer.mlp
  let hiddenStates ← layer.mlpConv.finish hiddenStates coefficients
  return (hiddenStates, residual)

/-- The layers, one after the other. -/
def layersForward (positions : List Position) :
    List (DecoderLayer Position K numGroups groupSize blockSize) →
      List (Channels K numGroups groupSize) →
      Option (List (Channels K numGroups groupSize)) → Option (Stream K numGroups groupSize)
  | [], hiddenStates, residual => residual.map fun residual => (hiddenStates, residual)
  | layer :: layers, hiddenStates, residual => do
    let (hiddenStates, residual) ← layer.forward positions hiddenStates residual
    layersForward positions layers hiddenStates (some residual)

/-! ### The blocks through the layers -/

section
variable {b b' : ℕ}

/-- Both buffers of the streams have the same block. -/
structure StreamSame (size b b' : ℕ) (s s' : Stream K numGroups groupSize) : Prop where
  hidden : Blocks.Same size s.1 s'.1 b b'
  residual : Blocks.Same size s.2 s'.2 b b'

/-- The residuals have the same block, or there are none yet. -/
inductive ResidualSame (size b b' : ℕ) : Option (List (Channels K numGroups groupSize)) →
    Option (List (Channels K numGroups groupSize)) → Prop where
  | none : ResidualSame size b b' none none
  | some {residual residual' : List (Channels K numGroups groupSize)} :
      Blocks.Same size residual residual' b b' →
        ResidualSame size b b' (some residual) (some residual')

omit [Semiring K] in
theorem addNorm_same {size : ℕ}
    {norm : Channels K numGroups groupSize → Channels K numGroups groupSize →
      Channels K numGroups groupSize × Channels K numGroups groupSize}
    {hiddenStates hiddenStates' residual residual' : List (Channels K numGroups groupSize)}
    (hhidden : Blocks.Same size hiddenStates hiddenStates' b b')
    (hresidual : Blocks.Same size residual residual' b b') :
    StreamSame size b b' (addNorm norm hiddenStates residual)
      (addNorm norm hiddenStates' residual') :=
  ⟨hhidden.zipWith hresidual _, hhidden.zipWith hresidual _⟩

/-- From the first norm on. -/
theorem inputNorm_same (layer : DecoderLayer Position K numGroups groupSize blockSize)
    {hiddenStates hiddenStates' : List (Channels K numGroups groupSize)}
    {residual residual' : Option (List (Channels K numGroups groupSize))}
    (hhidden : Blocks.Same blockSize hiddenStates hiddenStates' b b')
    (hresidual : ResidualSame blockSize b b' residual residual') :
    StreamSame blockSize b b' (layer.inputNorm hiddenStates residual)
      (layer.inputNorm hiddenStates' residual') := by
  cases hresidual with
  | none => exact ⟨hhidden.map _, hhidden⟩
  | some h => exact addNorm_same hhidden h

/-- **A layer keeps the requests apart.** -/
theorem forward_same (layer : DecoderLayer Position K numGroups groupSize blockSize)
    (hsize : 1 ≤ blockSize)
    {positions positions' : List Position}
    {hiddenStates hiddenStates' : List (Channels K numGroups groupSize)}
    {residual residual' : Option (List (Channels K numGroups groupSize))}
    {s s' : Stream K numGroups groupSize}
    (hpositions : Blocks.Same blockSize positions positions' b b')
    (hhidden : Blocks.Same blockSize hiddenStates hiddenStates' b b')
    (hresidual : ResidualSame blockSize b b' residual residual')
    (h : layer.forward positions hiddenStates residual = some s)
    (h' : layer.forward positions' hiddenStates' residual' = some s') :
    StreamSame blockSize b b' s s' := by
  have hnorm := inputNorm_same layer hhidden hresidual
  unfold DecoderLayer.forward at h h'
  obtain ⟨⟨prepared, coefficients⟩, hprepare, h⟩ := Option.bind_eq_some_iff.mp h
  obtain ⟨⟨prepared', coefficients'⟩, hprepare', h'⟩ := Option.bind_eq_some_iff.mp h'
  obtain ⟨finished, hfinish, h⟩ := Option.bind_eq_some_iff.mp h
  obtain ⟨finished', hfinish', h'⟩ := Option.bind_eq_some_iff.mp h'
  obtain ⟨⟨mixed, weights⟩, hmixed, h⟩ := Option.bind_eq_some_iff.mp h
  obtain ⟨⟨mixed', weights'⟩, hmixed', h'⟩ := Option.bind_eq_some_iff.mp h'
  obtain ⟨output, houtput, h⟩ := Option.bind_eq_some_iff.mp h
  obtain ⟨output', houtput', h'⟩ := Option.bind_eq_some_iff.mp h'
  obtain rfl := Option.some.inj h
  obtain rfl := Option.some.inj h'
  have hattn := layer.attentionConv_blockSize
  have hmlp := layer.mlpConv_blockSize
  -- the convolution before the attention, the attention, the one after it
  obtain ⟨hin, hcoefficients⟩ :=
    prepare_same layer.attentionConv hattn hsize hnorm.hidden hprepare hprepare'
  have hattended := layer.attention.apart hpositions hin
  have hout := finish_same layer.attentionConv hattn hsize hattended hcoefficients hfinish hfinish'
  -- the same around the MLP
  have hpost : StreamSame blockSize b b' (addNorm layer.postAttentionLayernorm finished _)
      (addNorm layer.postAttentionLayernorm finished' _) := addNorm_same hout hnorm.residual
  obtain ⟨hmid, hweights⟩ := prepare_same layer.mlpConv hmlp hsize hpost.hidden hmixed hmixed'
  exact ⟨finish_same layer.mlpConv hmlp hsize (hmid.map layer.mlp) hweights houtput houtput',
    hpost.residual⟩

/-- So does any number of layers. -/
theorem layers_same (hsize : 1 ≤ blockSize) {positions positions' : List Position}
    (hpositions : Blocks.Same blockSize positions positions' b b')
    {layers : List (DecoderLayer Position K numGroups groupSize blockSize)}
    {hiddenStates hiddenStates' : List (Channels K numGroups groupSize)}
    {residual residual' : Option (List (Channels K numGroups groupSize))}
    {s s' : Stream K numGroups groupSize}
    (hhidden : Blocks.Same blockSize hiddenStates hiddenStates' b b')
    (hresidual : ResidualSame blockSize b b' residual residual')
    (h : layersForward positions layers hiddenStates residual = some s)
    (h' : layersForward positions' layers hiddenStates' residual' = some s') :
    StreamSame blockSize b b' s s' := by
  induction layers generalizing hiddenStates hiddenStates' residual residual' with
  | nil =>
    obtain ⟨r, rfl, rfl⟩ := Option.map_eq_some_iff.mp h
    obtain ⟨r', rfl, rfl⟩ := Option.map_eq_some_iff.mp h'
    cases hresidual with
    | some hr => exact ⟨hhidden, hr⟩
  | cons layer layers ih =>
    obtain ⟨⟨mid, r⟩, hlayer, h⟩ := Option.bind_eq_some_iff.mp h
    obtain ⟨⟨mid', r'⟩, hlayer', h'⟩ := Option.bind_eq_some_iff.mp h'
    have hmid := forward_same layer hsize hpositions hhidden hresidual hlayer hlayer'
    exact ih hmid.hidden (.some hmid.residual) h h'

end

/-! ### The drafter -/

/-- What a draft runs through, from the input ids to the candidates. -/
structure Drafter (Position K H R : Type*) [Semiring K] [LinearOrder R]
    (numGroups groupSize blockSize topK : ℕ) where
  /-- `embed_input_ids` of the base class, of a row. -/
  embedInputIds : ℕ → Channels K numGroups groupSize
  inputEmbeddingScale : K
  layers : List (DecoderLayer Position K numGroups groupSize blockSize)
  /-- What is handed on of a row of the stream. -/
  readout : Channels K numGroups groupSize → Channels K numGroups groupSize → H
  model : DraftModel H R topK

section
variable {H R τ : Type*} [CommSemiring R] [LinearOrder R] {cfg : Config (WithBot R) τ}

/-- `embed_input_ids(input_ids)`. -/
def Drafter.embed {topK : ℕ} (drafter : Drafter Position K H R numGroups groupSize blockSize topK)
    (inputIds : List ℕ) : List (Channels K numGroups groupSize) :=
  inputIds.map fun token c => drafter.embedInputIds token c * drafter.inputEmbeddingScale

/-- A call reads what the layers leave of a buffer of input ids, one block for each request, and
samples in the block of a request at its offsets. -/
structure Drafter.Feeds {topK : ℕ}
    (drafter : Drafter Position K H R numGroups groupSize blockSize topK)
    (numSteps : ℕ) (offset : ℕ → ℕ) (positions : List Position) (inputIds : List ℕ)
    (d : DraftInput H τ) : Prop where
  stream : ∃ s, layersForward positions drafter.layers (drafter.embed inputIds) none = some s ∧
    ∀ i, d.lastHiddenStates i = drafter.readout (s.1.getD i 0) (s.2.getD i 0)
  inputIds : ∀ i, d.inputIds i = inputIds.getD i 0
  numQueryPerReq : d.numQueryPerReq = blockSize
  sampleIndices : ∀ row < d.numReqs, ∀ step < numSteps,
    d.sampleIndices (row * numSteps + step) = row * blockSize + offset step

/-- What a call samples a request with. -/
structure SamplingSame (cfg : Config (WithBot R) τ) (d₁ d₂ : DraftInput H τ)
    (row₁ row₂ : ℕ) : Prop where
  pos : ∀ step < cfg.numSteps, d₁.samplePos (row₁ * cfg.numSteps + step) =
    d₂.samplePos (row₂ * cfg.numSteps + step)
  temperature : d₁.temperature (d₁.sampleIdxMapping (row₁ * cfg.numSteps)).toNat =
    d₂.temperature (d₂.sampleIdxMapping (row₂ * cfg.numSteps)).toNat
  seed : d₁.seeds (d₁.sampleIdxMapping (row₁ * cfg.numSteps)).toNat =
    d₂.seeds (d₂.sampleIdxMapping (row₂ * cfg.numSteps)).toNat

variable {drafter : Drafter Position K H R numGroups groupSize blockSize cfg.topK} {offset : ℕ → ℕ}

omit [CommSemiring R] in
/-- The same block of input ids at the same positions is the same request. -/
theorem request_agrees (hsize : 1 ≤ blockSize)
    (hoffset : ∀ step < cfg.numSteps, offset step < blockSize)
    {positions₁ positions₂ : List Position} {ids₁ ids₂ : List ℕ} {d₁ d₂ : DraftInput H τ}
    {row₁ row₂ : ℕ}
    (hfeeds₁ : drafter.Feeds cfg.numSteps offset positions₁ ids₁ d₁)
    (hfeeds₂ : drafter.Feeds cfg.numSteps offset positions₂ ids₂ d₂)
    (hrow₁ : row₁ < d₁.numReqs) (hrow₂ : row₂ < d₂.numReqs)
    (hids : Blocks.Same blockSize ids₁ ids₂ row₁ row₂)
    (hpositions : Blocks.Same blockSize positions₁ positions₂ row₁ row₂)
    (hsampling : SamplingSame cfg d₁ d₂ row₁ row₂) :
    (d₁.request cfg row₁).Agrees cfg.numSteps (d₂.request cfg row₂) := by
  obtain ⟨s₁, hs₁, hlast₁⟩ := hfeeds₁.stream
  obtain ⟨s₂, hs₂, hlast₂⟩ := hfeeds₂.stream
  have hstream := layers_same hsize hpositions (hids.map _) .none hs₁ hs₂
  refine ⟨?_, fun step hstep => ?_, fun step hstep => ?_, hsampling.temperature, hsampling.seed⟩
  · -- the anchor is the first row of the block
    have hanchor := hids.getD hsize 0
    simp only [Nat.add_zero] at hanchor
    simp only [DraftInput.request, DraftInput.anchorTokenIds, hfeeds₁.inputIds, hfeeds₂.inputIds,
      hfeeds₁.numQueryPerReq, hfeeds₂.numQueryPerReq]
    exact hanchor
  · simp only [DraftInput.request, DraftInput.hiddenStates,
      hfeeds₁.sampleIndices row₁ hrow₁ step hstep,
      hfeeds₂.sampleIndices row₂ hrow₂ step hstep, hlast₁, hlast₂]
    rw [hstream.hidden.getD (hoffset step hstep), hstream.residual.getD (hoffset step hstep)]
  · simp only [DraftInput.request, hsampling.pos step hstep]

variable [Zero τ] [DecidableEq τ]

/-- **A request in its batch**: two calls with the same block of input ids at the same positions,
and sampled the same, draft the same tokens for it and hand over the same logits, whatever the other
requests of either batch and the calls before it. -/
theorem draft_isolated (hsize : 1 ≤ blockSize)
    (hoffset : ∀ step < cfg.numSteps, offset step < blockSize)
    {positions₁ positions₂ : List Position} {ids₁ ids₂ : List ℕ} {d₁ d₂ : DraftInput H τ}
    {row₁ row₂ : ℕ}
    {s₁ s₁' s₂ s₂' : Speculator (WithBot R)}
    (hfeeds₁ : drafter.Feeds cfg.numSteps offset positions₁ ids₁ d₁)
    (hfeeds₂ : drafter.Feeds cfg.numSteps offset positions₂ ids₂ d₂)
    (hs₁ : Reachable cfg drafter.model s₁) (hs₂ : Reachable cfg drafter.model s₂) (hd₁ : d₁.Ok cfg)
    (hd₂ : d₂.Ok cfg)
    (h₁ : GenerateDraft cfg drafter.model d₁ s₁ s₁')
    (h₂ : GenerateDraft cfg drafter.model d₂ s₂ s₂')
    (hids : Blocks.Same blockSize ids₁ ids₂ row₁ row₂)
    (hpositions : Blocks.Same blockSize positions₁ positions₂ row₁ row₂)
    (hsampling : SamplingSame cfg d₁ d₂ row₁ row₂) {step : ℕ}
    (he₁ : (d₁.batch cfg drafter.model).Entry cfg row₁ step)
    (he₂ : (d₂.batch cfg drafter.model).Entry cfg row₂ step) :
    (s₁'.rows row₁).draftTokens step = (s₂'.rows row₂).draftTokens step ∧
      (cfg.probabilistic = true → ∀ token,
        (s₁'.slots ((d₁.batch cfg drafter.model).state cfg row₁, step)).draftLogits token =
          (s₂'.slots ((d₂.batch cfg drafter.model).state cfg row₂, step)).draftLogits token) := by
  exact generateDraft_alone hs₁ hs₂ hd₁ hd₂ h₁ h₂ he₁ he₂
    (request_agrees hsize hoffset hfeeds₁ hfeeds₂ he₁.1 he₂.1 hids hpositions hsampling)

end

/-! ### A batch of two and one of three -/

/-- A convolution of two taps. -/
def pairConv : GroupedConv ℤ 1 1 := ⟨3, 2, fun _ _ _ => 1, fun _ _ => 1⟩

/-- A layer whose attention adds the position. -/
def addLayer : DecoderLayer ℤ ℤ 1 1 3 where
  inputLayernorm h := h
  inputLayernormAdd h r := (h + r, h + r)
  attentionConv := pairConv
  attention := ⟨List.zipWith fun p h => h + fun _ => p, fun hp hh => hp.zipWith hh _⟩
  postAttentionLayernorm h r := (h + r, h + r)
  mlpConv := pairConv
  mlp h := h
  attentionConv_blockSize := rfl
  mlpConv_blockSize := rfl

/-- A drafter of that layer. -/
def addDrafter : Drafter ℤ ℤ ℤ ℤ 1 1 3 2 :=
  ⟨fun token _ => token, 1, [addLayer], fun h r => h 0 - r 0, numbers⟩

/-- A call for the blocks of a buffer of input ids. -/
def callOf (inputIds : List ℕ) : DraftInput ℤ ℕ :=
  let s := (layersForward (inputIds.map fun _ => 0) addDrafter.layers
    (addDrafter.embed inputIds) none).getD ([], [])
  { requests (inputIds.length / 3) with
    lastHiddenStates := fun i => addDrafter.readout (s.1.getD i 0) (s.2.getD i 0)
    inputIds := fun i => inputIds.getD i 0
    sampleIndices := fun i => i / 2 * 3 + (1 + i % 2) }

theorem callOf_feeds {inputIds : List ℕ}
    (h : (layersForward (inputIds.map fun _ => 0) addDrafter.layers
    (addDrafter.embed inputIds) none).isSome) :
    addDrafter.Feeds 2 (fun step => 1 + step) (inputIds.map fun _ => 0) inputIds
        (callOf inputIds) := by
  obtain ⟨s, hs⟩ := Option.isSome_iff_exists.mp h
  refine ⟨⟨s, hs, fun i => by rw [callOf, hs]; rfl⟩, fun _ => rfl, rfl, fun row _ step hstep => ?_⟩
  simp only [callOf]
  omega

theorem draft_isolated_pairs : ∃ s' t',
    GenerateDraft twoSteps numbers (callOf [1, 0, 0, 5, 0, 0]) undrafted s' ∧
    GenerateDraft twoSteps numbers (callOf [1, 0, 0, 2, 0, 0, 5, 0, 0]) undrafted t' ∧
    (s'.rows 1).draftTokens 1 = (t'.rows 2).draftTokens 1 := by
  obtain ⟨s', hs⟩ := exists_generateDraft twoSteps numbers (callOf [1, 0, 0, 5, 0, 0]) undrafted
  obtain ⟨t', ht⟩ := exists_generateDraft twoSteps numbers
    (callOf [1, 0, 0, 2, 0, 0, 5, 0, 0]) undrafted
  have hfeeds : addDrafter.Feeds twoSteps.numSteps _ _ _ (callOf [1, 0, 0, 5, 0, 0]) :=
    callOf_feeds (by decide +kernel)
  have hfeeds' : addDrafter.Feeds twoSteps.numSteps _ _ _ (callOf [1, 0, 0, 2, 0, 0, 5, 0, 0]) :=
    callOf_feeds (by decide +kernel)
  have hok : ∀ ids, (callOf ids).Ok twoSteps := fun ids =>
    ⟨(requests_ok (ids.length / 3)).sameState, (requests_ok (ids.length / 3)).ownState⟩
  have hids : Blocks.Same 3 [1, 0, 0, 5, 0, 0] [1, 0, 0, 2, 0, 0, 5, 0, 0] 1 2 :=
    ⟨by decide, by decide, by decide⟩
  have hpositions : Blocks.Same 3 ([1, 0, 0, 5, 0, 0].map fun _ => (0 : ℤ))
      ([1, 0, 0, 2, 0, 0, 5, 0, 0].map fun _ => (0 : ℤ)) 1 2 := hids.map _
  have hoffset : ∀ step < twoSteps.numSteps, 1 + step < 3 := by decide
  have hsampling : SamplingSame twoSteps (callOf [1, 0, 0, 5, 0, 0])
      (callOf [1, 0, 0, 2, 0, 0, 5, 0, 0]) 1 2 :=
    ⟨fun _ _ => rfl, rfl, rfl⟩
  have hsecond : ((callOf [1, 0, 0, 5, 0, 0]).batch twoSteps numbers).Entry twoSteps 1 1 :=
    ⟨by decide, by decide, by decide⟩
  have hthird : ((callOf [1, 0, 0, 2, 0, 0, 5, 0, 0]).batch twoSteps numbers).Entry twoSteps 2 1 :=
    ⟨by decide, by decide, by decide⟩
  exact ⟨s', t', hs, ht,
    (draft_isolated (by decide) hoffset hfeeds hfeeds' (.init _) (.init _) (hok _) (hok _)
    hs ht hids hpositions hsampling hsecond hthird).1⟩

end Glm53Serve.Dflash
