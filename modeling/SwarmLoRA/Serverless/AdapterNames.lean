import SwarmLoRA.Serverless.Registry

namespace Serverless

open Data.Replace

def create_adapter_artifact (adapter_id : AdapterId) (backbone_id : ArtifactId)
    (size_mb loading_delay_ms : ℚ) (hSize : 0 ≤ size_mb) : Artifact where
  artifact_id := adapter_artifact_id adapter_id
  artifact_type := .adapter
  size_mb := size_mb
  loading_delay_ms := loading_delay_ms
  depends_on := [backbone_id]
  backbone_id := some backbone_id
  size_nonneg := hSize

/-- The adapter of an artifact, as the agent reads it off in two places and the worker in one. -/
def adapter_id_of (artifact_id : ArtifactId) : AdapterId :=
  str_replace (str_replace artifact_id "adapter_" "") "_" "/"

/-- The ids that survive: no underscore, and no component but the last that ends in the prefix of
the artifact ids. -/
def Readable (adapter_id : AdapterId) : Prop :=
  '_' ∉ adapter_id.toList ∧ ¬ "adapter/".toList <:+: adapter_id.toList

def underscored (c : Char) : Char := if c = '/' then '_' else c

def slashed (c : Char) : Char := if c = '_' then '/' else c

theorem slashed_underscored {c : Char} (h : c ≠ '_') : slashed (underscored c) = c := by
  unfold slashed underscored
  by_cases hSlash : c = '/'
  · rw [if_pos hSlash, if_pos rfl, hSlash]
  · rw [if_neg hSlash, if_neg h]

theorem slashed_ne_underscore (c : Char) : slashed c ≠ '_' := by
  unfold slashed
  split
  next => decide
  next h => exact h

theorem map_slashed_underscored {chars : List Char} (h : '_' ∉ chars) :
    (chars.map underscored).map slashed = chars := by
  rw [List.map_map]
  calc
    chars.map (slashed ∘ underscored) = chars.map id :=
      List.map_congr_left fun c hc => slashed_underscored fun hSame => h (hSame ▸ hc)
    _ = chars := List.map_id chars

theorem toList_str_replace (s old new : String) :
    (str_replace s old new).toList = replace old.toList new.toList s.toList :=
  String.toList_ofList

theorem toList_adapter_artifact_id (adapter_id : AdapterId) :
    (adapter_artifact_id adapter_id).toList =
      "adapter_".toList ++ adapter_id.toList.map underscored := by
  rw [adapter_artifact_id, String.toList_append, toList_str_replace]
  exact congrArg ("adapter_".toList ++ ·) (replace_singleton '/' '_' _)

/-- The prefix is taken out, and every later occurrence of it. -/
theorem toList_adapter_id_of (adapter_id : AdapterId) :
    (adapter_id_of (adapter_artifact_id adapter_id)).toList =
      (replace "adapter_".toList [] (adapter_id.toList.map underscored)).map slashed := by
  rw [adapter_id_of, toList_str_replace, toList_str_replace, toList_adapter_artifact_id]
  have hPrefix : replace "adapter_".toList "".toList
      ("adapter_".toList ++ adapter_id.toList.map underscored) =
      replace "adapter_".toList [] (adapter_id.toList.map underscored) :=
    replace_append (by decide)
  rw [hPrefix]
  exact replace_singleton '_' '/' _

/-- What is read back from the artifact of an adapter is the adapter if the id is readable, and only
then. -/
theorem adapter_id_of_artifact_iff (adapter_id : AdapterId) :
    adapter_id_of (adapter_artifact_id adapter_id) = adapter_id ↔ Readable adapter_id := by
  rw [← String.toList_inj, toList_adapter_id_of]
  constructor
  · intro hSame
    constructor
    · rw [← hSame]
      intro hMem
      obtain ⟨c, -, hc⟩ := List.mem_map.mp hMem
      exact slashed_ne_underscore c hc
    · intro hInfix
      have hOccurs : "adapter_".toList <:+: adapter_id.toList.map underscored :=
        hInfix.map underscored
      have hShorter := length_replace_lt (by decide) hOccurs
      have hLength := congrArg List.length hSame
      rw [List.length_map] at hLength hShorter
      omega
  · rintro ⟨hUnderscore, hPrefix⟩
    have hNowhere : ¬ "adapter_".toList <:+: adapter_id.toList.map underscored := by
      intro hInfix
      obtain ⟨chars, hChars, hMap⟩ := List.infix_map_iff.mp hInfix
      have hClean : '_' ∉ chars := fun hMem => hUnderscore (hChars.subset hMem)
      have hSlash : chars = "adapter/".toList := by
        rw [← map_slashed_underscored hClean, ← hMap]
        decide
      exact hPrefix (hSlash ▸ hChars)
    rw [replace_of_absent hNowhere, map_slashed_underscored hUnderscore]

end Serverless
