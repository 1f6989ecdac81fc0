import Glm53Serve.Lib.HalfEven
import Glm53Serve.Lib.MapM
import Glm53Serve.Py.Replace
import Mathlib.Data.List.GetD
import Mathlib.Data.Rat.Floor

/-!
# Video placeholders

`_align_timestamps` and `_construct_video_placeholder` of `patch_glm_video_placeholders.py`: the
prompt placeholder of a video has one bracketed block of embed tokens for each time group of the
encoder, whatever the number of timestamps.

## The model

The division of the indices is exact and `round` goes to the even neighbour. A timestamp is of
any type with a zero. What comes from outside the repository is a parameter (`ProcessingInfo`):
the timestamps of a video, and the tokens of a formatted timestamp.

## What is proved

* `alignTimestamps_eq` — the entries are taken from the list at `positions`.
* `positions_pairwise`, `mem_positions` — the positions do not decrease, and none is skipped
  where there are not more timestamps than groups.
* `video_placeholder` — both, and the blocks of the placeholder.
-/

namespace Glm53Serve.Video

/-! ### The alignment -/

/-- What the functions raise. -/
inductive Err where
  | indexError
  | zeroDivisionError
  deriving DecidableEq, Repr

section Align

variable {τ : Type}

/-- `l[k]`; a negative index counts from the end. -/
def getItem (l : List τ) (k : ℤ) : Except Err τ :=
  let k := if k < 0 then k + l.length else k
  if k < 0 then .error .indexError
  else
    match l[k.toNat]? with
    | some x => .ok x
    | none => .error .indexError

/-- The index of the group `i` of `t`, among indices up to `last`. -/
def groupIndex (last t : ℤ) (i : ℕ) : ℤ := HalfEven.roundEven ((i * last : ℚ) / (t - 1))

/-- `_align_timestamps`. -/
def alignTimestamps [Zero τ] (timestamps : List τ) (tGroups : ℤ) : Except Err (List τ) :=
  let tGroups := if tGroups < 1 then 1 else tGroups
  if timestamps = [] then .ok (List.replicate tGroups.toNat 0)
  else
    let n : ℤ := timestamps.length
    if n = tGroups then .ok timestamps
    else if tGroups = 1 then do
      let first ← getItem timestamps 0
      return [first]
    else if n < tGroups then do
      let final ← getItem timestamps (-1)
      return timestamps ++ List.replicate (tGroups - n).toNat final
    else
      let last := n - 1
      (List.range tGroups.toNat).mapM fun i => getItem timestamps (groupIndex last tGroups i)

/-- The position of the timestamp of each of `t` groups, of `n` timestamps. -/
def positions (n t : ℕ) : List ℕ :=
  if n ≤ t then List.range n ++ List.replicate (t - n) (n - 1)
  else (List.range t).map fun i => (groupIndex (n - 1) t i).toNat

theorem getItem_of_lt [Zero τ] {l : List τ} {k : ℤ} (h0 : 0 ≤ k) (h : k < l.length) :
    getItem l k = .ok (l.getD k.toNat 0) := by
  have hlt : k.toNat < l.length := by omega
  simp only [getItem, if_neg (not_lt.mpr h0), List.getElem?_eq_getElem hlt,
    List.getD_eq_getElem _ _ hlt]

theorem getItem_neg_one [Zero τ] {l : List τ} (h : l ≠ []) :
    getItem l (-1) = .ok (l.getD (l.length - 1) 0) := by
  have hpos := List.length_pos_iff.mpr h
  have hlt : l.length - 1 < l.length := by omega
  have hk : ((-1 : ℤ) + l.length).toNat = l.length - 1 := by omega
  have hnot : ¬ (-1 : ℤ) + l.length < 0 := by omega
  simp only [getItem, show (-1 : ℤ) < 0 by decide, ↓reduceIte, if_neg hnot, hk,
    List.getElem?_eq_getElem hlt, List.getD_eq_getElem _ _ hlt]

/-! ### The index of a group -/

section Index

variable {n t i j : ℕ}

theorem groupIndex_zero (last t : ℤ) : groupIndex last t 0 = 0 := by
  have h := HalfEven.roundEven_intCast (α := ℚ) 0
  simpa [groupIndex] using h

/-- The last group has the last timestamp. -/
theorem groupIndex_last (ht : 2 ≤ t) (last : ℤ) : groupIndex last t (t - 1) = last := by
  have hne : ((t : ℤ) : ℚ) - 1 ≠ 0 := by
    have : (2 : ℚ) ≤ t := by exact_mod_cast ht
    push_cast
    linarith
  have hcast : ((t - 1 : ℕ) : ℚ) = ((t : ℤ) : ℚ) - 1 := by
    rw [Nat.cast_sub (by omega : 1 ≤ t), Nat.cast_one, Int.cast_natCast]
  rw [groupIndex, hcast, mul_div_assoc, mul_div_cancel₀ _ hne, HalfEven.roundEven_intCast]

theorem groupIndex_mono (ht : 2 ≤ t) {m : ℤ} (hlast : 0 ≤ m) (hij : i ≤ j) :
    groupIndex m t i ≤ groupIndex m t j := by
  have ht' : (0 : ℚ) < ((t : ℤ) : ℚ) - 1 := by
    have : (2 : ℚ) ≤ t := by exact_mod_cast ht
    push_cast
    linarith
  have hlast' : (0 : ℚ) ≤ m := by exact_mod_cast hlast
  have hij' : (i : ℚ) ≤ j := by exact_mod_cast hij
  exact HalfEven.roundEven_mono (by gcongr)

theorem groupIndex_bounds (ht : 2 ≤ t) {m : ℤ} (hlast : 0 ≤ m) (hi : i < t) :
    0 ≤ groupIndex m t i ∧ groupIndex m t i ≤ m := by
  constructor
  · exact (groupIndex_zero m t).symm.trans_le (groupIndex_mono ht hlast (Nat.zero_le i))
  · exact (groupIndex_mono ht hlast (by omega)).trans_eq (groupIndex_last ht m)

/-- Where there are more timestamps than groups, the step is greater than one. -/
theorem groupIndex_lt (ht : 2 ≤ t) {m : ℤ} (hlast : t ≤ m) (hij : i < j) :
    groupIndex m t i < groupIndex m t j := by
  refine HalfEven.roundEven_lt ?_
  have ht' : (0 : ℚ) < ((t : ℤ) : ℚ) - 1 := by
    have : (2 : ℚ) ≤ t := by exact_mod_cast ht
    push_cast
    linarith
  have hstep : ((t : ℤ) : ℚ) - 1 < m := by
    have : ((t : ℤ) : ℚ) ≤ m := by exact_mod_cast hlast
    linarith
  have hij' : (i : ℚ) + 1 ≤ j := by exact_mod_cast hij
  rw [← lt_sub_iff_add_lt', ← sub_div, lt_div_iff₀ ht', one_mul]
  calc ((t : ℤ) : ℚ) - 1 < m := hstep
    _ = 1 * m := (one_mul _).symm
    _ ≤ (j - i) * m := by
        refine mul_le_mul_of_nonneg_right (by linarith) ?_
        linarith
    _ = j * m - i * m := sub_mul _ _ _

end Index

/-! ### The positions -/

section Positions

variable {n t : ℕ}

theorem length_positions (n t : ℕ) : (positions n t).length = t := by
  rw [positions]
  split_ifs with h
  · simp [h]
  · simp

theorem positions_lt (hn : 1 ≤ n) (ht : 1 ≤ t) : ∀ p ∈ positions n t, p < n := by
  intro p hp
  rw [positions] at hp
  split_ifs at hp with h
  · rcases List.mem_append.mp hp with hp | hp
    · exact List.mem_range.mp hp
    · have := List.eq_of_mem_replicate hp
      omega
  · obtain ⟨i, hi, rfl⟩ := List.mem_map.mp hp
    have hi := List.mem_range.mp hi
    rcases Nat.lt_or_ge t 2 with hone | htwo
    · obtain rfl : i = 0 := by omega
      rw [groupIndex_zero]
      exact hn
    · have hbounds := groupIndex_bounds htwo (m := n - 1) (by omega) hi
      omega

theorem head?_positions (hn : 1 ≤ n) (ht : 1 ≤ t) : (positions n t).head? = some 0 := by
  rw [positions]
  obtain ⟨m, rfl⟩ : ∃ m, n = m + 1 := ⟨n - 1, by omega⟩
  obtain ⟨k, rfl⟩ : ∃ k, t = k + 1 := ⟨t - 1, by omega⟩
  split_ifs with h
  · simp [List.range_succ_eq_map]
  · rw [List.range_succ_eq_map, List.map_cons, List.head?_cons, groupIndex_zero]
    rfl

theorem positions_pairwise (n : ℕ) (ht : 1 ≤ t) : (positions n t).Pairwise (· ≤ ·) := by
  rw [positions]
  split_ifs with h
  · refine List.pairwise_append.mpr ⟨List.pairwise_lt_range.imp le_of_lt, ?_, ?_⟩
    · exact List.pairwise_replicate.mpr (.inr le_rfl)
    · intro a ha b hb
      have ha := List.mem_range.mp ha
      have hb := List.eq_of_mem_replicate hb
      omega
  · rw [List.pairwise_map]
    rcases Nat.lt_or_ge t 2 with hone | htwo
    · obtain rfl : t = 1 := by omega
      exact List.pairwise_singleton _ _
    · exact List.pairwise_lt_range.imp fun hij =>
        Int.toNat_le_toNat (groupIndex_mono htwo (by omega) hij.le)

/-- More timestamps than groups: no timestamp is taken twice. -/
theorem positions_strict (ht : 2 ≤ t) (hn : t < n) : (positions n t).Pairwise (· < ·) := by
  rw [positions, if_neg (by omega), List.pairwise_map]
  refine List.pairwise_lt_range.imp_of_mem fun ha hb hij => ?_
  have hlt := groupIndex_lt ht (m := n - 1) (by omega) hij
  have hnonneg := (groupIndex_bounds ht (m := n - 1) (by omega) (List.mem_range.mp ha)).1
  omega

theorem getLast?_positions (ht : 2 ≤ t) (hn : t < n) : (positions n t).getLast? = some (n - 1) := by
  obtain ⟨k, rfl⟩ : ∃ k, t = k + 1 := ⟨t - 1, by omega⟩
  have hlast := groupIndex_last ht (n - 1)
  rw [Nat.add_sub_cancel] at hlast
  rw [positions, if_neg (by omega), List.range_succ, List.map_append, List.map_singleton,
    List.getLast?_concat, hlast]
  congr 1
  omega

/-- Not more timestamps than groups: none is skipped. -/
theorem mem_positions (h : n ≤ t) : ∀ p < n, p ∈ positions n t := by
  intro p hp
  rw [positions, if_pos h]
  exact List.mem_append_left _ (List.mem_range.mpr hp)

end Positions

theorem map_getD_range [Zero τ] (l : List τ) : (List.range l.length).map (l.getD · 0) = l :=
  List.ext_getElem (by simp) fun i h _ => by simp_all

/-- The timestamps of the groups are those at the positions. -/
theorem alignTimestamps_eq [Zero τ] {timestamps : List τ} (h : timestamps ≠ []) (tGroups : ℤ) :
    alignTimestamps timestamps tGroups = .ok
      ((positions timestamps.length (max tGroups 1).toNat).map (timestamps.getD · 0)) := by
  have hn := List.length_pos_iff.mpr h
  have ht : (if tGroups < 1 then 1 else tGroups) = max tGroups 1 := by
    split_ifs <;> omega
  obtain ⟨t, ht1, htt⟩ : ∃ t : ℕ, 1 ≤ t ∧ max tGroups 1 = t :=
    ⟨(max tGroups 1).toNat, by omega, by omega⟩
  simp only [alignTimestamps, ht, htt, if_neg h, Int.toNat_natCast]
  split_ifs with heq hone hlt
  · -- as many groups
    obtain rfl : t = timestamps.length := by omega
    simp only [positions, le_refl, ↓reduceIte, Nat.sub_self, List.replicate_zero, List.append_nil,
      map_getD_range]
  · -- one group
    obtain rfl : t = 1 := by omega
    rw [getItem_of_lt le_rfl (by omega), positions, if_neg (by omega), List.range_one,
      List.map_singleton, groupIndex_zero]
    rfl
  · -- more groups: the last timestamp is repeated
    have hsub : ((t : ℤ) - timestamps.length).toNat = t - timestamps.length := by omega
    rw [getItem_neg_one h, positions, if_pos (by omega), List.map_append, map_getD_range,
      List.map_replicate, hsub]
    rfl
  · -- fewer groups, and at least two
    have hbounds : ∀ i ∈ List.range t, getItem timestamps (groupIndex (timestamps.length - 1) t i)
        = .ok (timestamps.getD (groupIndex (timestamps.length - 1) t i).toNat 0) := by
      intro i hi
      have hb := groupIndex_bounds (by omega : 2 ≤ t) (m := timestamps.length - 1) (by omega)
        (List.mem_range.mp hi)
      exact getItem_of_lt hb.1 (by omega)
    rw [Except.mapM_eq_map hbounds, positions, if_neg (by omega), List.map_map]
    rfl

end Align

/-! ### The placeholder -/

/-- `hf_processor.video_processor`. -/
structure VideoProcessor where
  /-- `type(vp).__name__`. -/
  name : Py.Text
  /-- `hasattr(vp, "max_duration")`. -/
  hasMaxDuration : Bool

/-- What is read of the processor. -/
structure HfProcessor where
  /-- `type(hf_processor).__name__`. -/
  name : Py.Text
  videoProcessor : Option VideoProcessor
  /-- `isinstance(hf_processor, Glm4vProcessor)`. -/
  isGlm4v : Bool
  /-- `image_processor.merge_size` -/
  mergeSize : ℤ

/-- The tokens of the configuration. -/
structure HfConfig where
  videoStartTokenId : ℤ
  imageStartTokenId : ℤ
  imageEndTokenId : ℤ
  videoEndTokenId : ℤ

/-- `ts_fmt`. -/
inductive TsFmt where
  /-- `"{}"` -/
  | plain
  /-- `"{:.1f} seconds"` -/
  | seconds
  deriving DecidableEq, Repr

/-- The object whose method `_construct_video_placeholder` becomes; its other methods are outside
the repository. -/
structure ProcessingInfo (μ τ : Type) where
  hfProcessor : HfProcessor
  hfConfig : HfConfig
  /-- `_is_glmga_model(hf_processor)`. -/
  isGlmgaModel : Bool
  /-- `_get_video_second_idx_glm4v(metadata, frames)`. -/
  videoSecondIdxGlm4v : μ → ℕ → List τ
  /-- `_get_video_second_idx_glmga(metadata, frames)`. -/
  videoSecondIdxGlmga : μ → ℕ → List τ
  /-- `_get_video_second_idx_glm46v(metadata, frames)`. -/
  videoSecondIdxGlm46v : μ → ℕ → List τ
  /-- `_get_video_frame_embed_token_id(hf_processor)`. -/
  embedTokenId : ℤ
  /-- `tokenizer.encode(ts_fmt.format(ts), add_special_tokens=False)`. -/
  encode : TsFmt → τ → List ℤ

/-- `_use_glm4v_timestamps`. -/
def useGlm4vTimestamps (p : HfProcessor) : Bool :=
  let vpName := (p.videoProcessor.map VideoProcessor.name).getD []
  let glm5 : Py.Text := ['G', 'l', 'm', '5']
  if Py.isIn glm5 p.name || Py.isIn glm5 vpName then false
  else if p.videoProcessor.any fun vp => !vp.hasMaxDuration then false
  else p.isGlm4v

section Placeholder

variable {μ τ : Type}

namespace ProcessingInfo

/-- The timestamps of a video, and how they are written. -/
def timestamps (info : ProcessingInfo μ τ) (metadata : μ) (frames : ℕ) : List τ × TsFmt :=
  if useGlm4vTimestamps info.hfProcessor then (info.videoSecondIdxGlm4v metadata frames, .plain)
  else if info.isGlmgaModel then (info.videoSecondIdxGlmga metadata frames, .seconds)
  else (info.videoSecondIdxGlm46v metadata frames, .seconds)

/-- The tokens of a timestamp: a bracketed block of embed tokens, and its text. -/
def block (info : ProcessingInfo μ τ) (nPer : ℤ) (text : List ℤ) : List ℤ :=
  info.hfConfig.imageStartTokenId :: List.replicate nPer.toNat info.embedTokenId
    ++ info.hfConfig.imageEndTokenId :: text

end ProcessingInfo

/-- `_construct_video_placeholder`; `gridThw` is flattened. -/
def constructVideoPlaceholder [Zero τ] (info : ProcessingInfo μ τ) (frames : ℕ) (metadata : μ)
    (gridThw : List ℤ) : Except Err (List ℤ) :=
  let mergeLength := info.hfProcessor.mergeSize ^ 2
  match gridThw with
  | tGroups :: height :: width :: _ =>
    if mergeLength = 0 then .error .zeroDivisionError
    else do
      let nPer := (height * width).fdiv mergeLength
      let (timestamps, tsFmt) := info.timestamps metadata frames
      let timestamps ← alignTimestamps timestamps tGroups
      return info.hfConfig.videoStartTokenId
        :: timestamps.flatMap (fun ts => info.block nPer (info.encode tsFmt ts))
        ++ [info.hfConfig.videoEndTokenId]
  | _ => .error .indexError

/-- What the code relies on: the embed token is none of the brackets, and no text of a timestamp
holds it. -/
structure ProcessingInfo.EmbedApart (info : ProcessingInfo μ τ) : Prop where
  videoStart : info.hfConfig.videoStartTokenId ≠ info.embedTokenId
  imageStart : info.hfConfig.imageStartTokenId ≠ info.embedTokenId
  imageEnd : info.hfConfig.imageEndTokenId ≠ info.embedTokenId
  videoEnd : info.hfConfig.videoEndTokenId ≠ info.embedTokenId
  encode : ∀ tsFmt ts, info.embedTokenId ∉ info.encode tsFmt ts

theorem alignTimestamps_length [Zero τ] (timestamps : List τ) (tGroups : ℤ) :
    ∃ l, alignTimestamps timestamps tGroups = .ok l ∧ l.length = (max tGroups 1).toNat := by
  by_cases h : timestamps = []
  · refine ⟨_, if_pos h, ?_⟩
    rw [List.length_replicate]
    congr 1
    split_ifs <;> omega
  · exact ⟨_, alignTimestamps_eq h tGroups, by rw [List.length_map, length_positions]⟩

theorem count_block {info : ProcessingInfo μ τ} (h : info.EmbedApart) (nPer : ℤ) (tsFmt : TsFmt)
    (ts : τ) : (info.block nPer (info.encode tsFmt ts)).count info.embedTokenId = nPer.toNat := by
  rw [ProcessingInfo.block, List.cons_append, List.count_cons_of_ne h.imageStart, List.count_append,
    List.count_replicate_self, List.count_cons_of_ne h.imageEnd,
    List.count_eq_zero_of_not_mem (h.encode tsFmt ts), Nat.add_zero]

/-- The blocks between the brackets of a video hold the embed tokens. -/
theorem count_blocks {info : ProcessingInfo μ τ} (h : info.EmbedApart) (nPer : ℤ) (tsFmt : TsFmt)
    (timestamps : List τ) :
    (info.hfConfig.videoStartTokenId
        :: timestamps.flatMap (fun ts => info.block nPer (info.encode tsFmt ts))
        ++ [info.hfConfig.videoEndTokenId]).count info.embedTokenId
      = timestamps.length * nPer.toNat := by
  rw [List.cons_append, List.count_cons_of_ne h.videoStart, List.count_append,
    List.count_cons_of_ne h.videoEnd, List.count_nil, Nat.add_zero]
  induction timestamps with
  | nil => simp
  | cons ts timestamps ih =>
    rw [List.flatMap_cons, List.count_append, count_block h, ih, List.length_cons, Nat.succ_mul,
      Nat.add_comm]

/-- **Video timestamps.** For any timestamps and any number of groups, the alignment returns one
timestamp a group, or one for no group; of a list that is not empty they are those at positions
that start with the first and do not decrease, which are strictly increasing and end with the
last where there are more timestamps than groups and at least two groups, and of which none is
skipped where there are not more. So the placeholder of a video is one block of embed tokens a
group between the brackets, and holds no other embed token. -/
theorem video_placeholder [Zero τ] (info : ProcessingInfo μ τ) :
    (∀ (timestamps : List τ) (tGroups : ℤ), ∃ l, alignTimestamps timestamps tGroups = .ok l ∧
      l.length = (max tGroups 1).toNat ∧
      (timestamps ≠ [] → ∃ pos : List ℕ, l.map some = pos.map (timestamps[·]?) ∧
        pos.Pairwise (· ≤ ·) ∧ pos.head? = some 0 ∧
        (2 ≤ tGroups → tGroups < timestamps.length →
          pos.Pairwise (· < ·) ∧ pos.getLast? = some (timestamps.length - 1)) ∧
        (timestamps.length ≤ max tGroups 1 → ∀ p < timestamps.length, p ∈ pos))) ∧
    ∀ (frames : ℕ) (metadata : μ) (tGroups height width : ℤ) (rest : List ℤ),
      info.hfProcessor.mergeSize ≠ 0 →
      ∃ texts : List (List ℤ), texts.length = (max tGroups 1).toNat ∧
        constructVideoPlaceholder info frames metadata (tGroups :: height :: width :: rest)
          = .ok (info.hfConfig.videoStartTokenId
              :: texts.flatMap (info.block ((height * width).fdiv (info.hfProcessor.mergeSize ^ 2)))
              ++ [info.hfConfig.videoEndTokenId]) ∧
        (info.EmbedApart → ∀ placeholder,
          constructVideoPlaceholder info frames metadata (tGroups :: height :: width :: rest)
            = .ok placeholder →
          placeholder.count info.embedTokenId = (max tGroups 1).toNat
            * ((height * width).fdiv (info.hfProcessor.mergeSize ^ 2)).toNat) := by
  refine ⟨fun timestamps tGroups => ?_, fun frames metadata tGroups height width rest hmerge => ?_⟩
  · obtain ⟨l, hl, hlength⟩ := alignTimestamps_length timestamps tGroups
    refine ⟨l, hl, hlength, fun h => ?_⟩
    rw [alignTimestamps_eq h, Except.ok.injEq] at hl
    have hn := List.length_pos_iff.mpr h
    have ht : 1 ≤ (max tGroups 1).toNat := by omega
    refine ⟨positions timestamps.length (max tGroups 1).toNat, ?_, positions_pairwise _ ht,
      head?_positions hn ht, fun htwo hlt => ?_, fun hle => mem_positions (by omega)⟩
    · rw [← hl, List.map_map]
      refine List.map_congr_left fun p hp => ?_
      have hp := positions_lt hn ht p hp
      rw [Function.comp_apply, List.getD_eq_getElem _ _ hp, List.getElem?_eq_getElem hp]
    · exact ⟨positions_strict (by omega) (by omega), getLast?_positions (by omega) (by omega)⟩
  · have hlen : info.hfProcessor.mergeSize ^ 2 ≠ 0 := pow_ne_zero 2 hmerge
    obtain ⟨l, hl, hlength⟩ :=
      alignTimestamps_length (info.timestamps metadata frames).1 tGroups
    have hconstruct : constructVideoPlaceholder info frames metadata
        (tGroups :: height :: width :: rest) = .ok (info.hfConfig.videoStartTokenId
          :: l.flatMap (fun ts =>
            info.block ((height * width).fdiv (info.hfProcessor.mergeSize ^ 2))
            (info.encode (info.timestamps metadata frames).2 ts))
          ++ [info.hfConfig.videoEndTokenId]) := by
      simp only [constructVideoPlaceholder, if_neg hlen, hl]
      rfl
    refine ⟨l.map (info.encode (info.timestamps metadata frames).2),
      by rw [List.length_map, hlength], ?_, fun hapart placeholder hplaceholder => ?_⟩
    · rw [hconstruct, List.flatMap_map]
    · rw [hconstruct, Except.ok.injEq] at hplaceholder
      rw [← hplaceholder, count_blocks hapart, hlength]

end Placeholder

/-- A clip of one second: three timestamps, and one group of the encoder. -/
def clipInfo : ProcessingInfo Unit ℚ where
  hfProcessor :=
    ⟨"Glm5NextProcessor".toList, some ⟨"Glm5NextVideoProcessor".toList, false⟩, true, 2⟩
  hfConfig := ⟨151340, 151339, 151341, 151342⟩
  isGlmgaModel := false
  videoSecondIdxGlm4v _ _ := []
  videoSecondIdxGlmga _ _ := []
  videoSecondIdxGlm46v _ _ := [0, 1 / 2, 1]
  embedTokenId := 151363
  encode _ _ := [15, 13, 15, 6486]

/-- Its placeholder holds the 100 embed tokens of one group, and not 300. -/
theorem video_placeholder_clip : ∃ placeholder,
    constructVideoPlaceholder clipInfo 16 () [1, 20, 20] = .ok placeholder ∧
      placeholder.count 151363 = 100 := by
  obtain ⟨texts, -, hconstruct, hcount⟩ :=
    (video_placeholder clipInfo).2 16 () 1 20 20 [] (by decide)
  have htext : (151363 : ℤ) ∉ ([15, 13, 15, 6486] : List ℤ) := by decide
  exact ⟨_, hconstruct,
    hcount ⟨by decide, by decide, by decide, by decide, fun _ _ => htext⟩ _ hconstruct⟩

end Glm53Serve.Video
