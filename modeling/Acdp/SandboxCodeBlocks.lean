import Acdp.MarkedBlocks
import Acdp.SandboxCodeGenerator

/-!
# The block that is taken from a response

The loop over the lines keeps a mode: it skips lines up to the first fence,
collects them from there on, and stops at the second fence.  What it collects
is the first block between fences, and a block without a line counts as none.
-/

namespace Acdp
namespace Sandbox
namespace LlmCodeGenerator

/-- Inside a block the loop collects up to the next fence. -/
theorem collectBlock_inside (lines : List String) :
    collectBlock true lines = lines.takeWhile (fun line => !isFence line) := by
  induction lines with
  | nil => rfl
  | cons line rest ih =>
      rw [collectBlock]
      by_cases hfence : isFence line = true
      · rw [if_pos hfence, if_pos rfl,
          List.takeWhile_cons_of_neg (by simp [hfence])]
      · rw [if_neg hfence, if_pos rfl, ih,
          List.takeWhile_cons_of_pos (by simp [hfence])]

theorem collectBlock_outside (lines : List String) :
    collectBlock false lines = firstBlock isFence lines := by
  induction lines with
  | nil => rfl
  | cons line rest ih =>
      rw [collectBlock, firstBlock]
      by_cases hfence : isFence line = true
      · rw [if_pos hfence, if_neg Bool.false_ne_true, collectBlock_inside,
          List.dropWhile_cons_of_neg (by simp [hfence]), List.tail_cons]
      · rw [if_neg hfence, if_neg Bool.false_ne_true, ih, firstBlock,
          List.dropWhile_cons_of_pos (by simp [hfence])]

theorem extractCodeBlock_of_block {response : String} {block : List String}
    (hblock : firstBlock isFence (Text.lines response) = block)
    (hnonempty : block ≠ []) :
    extractCodeBlock response = some ("\n".intercalate block) := by
  obtain ⟨line, rest, rfl⟩ := List.exists_cons_of_ne_nil hnonempty
  rw [extractCodeBlock, collectBlock_outside, hblock]

theorem extractCodeBlock_of_noBlock {response : String}
    (hblock : firstBlock isFence (Text.lines response) = []) :
    extractCodeBlock response = none := by
  rw [extractCodeBlock, collectBlock_outside, hblock]

/-- The lines of a response with a fence: what is taken is exactly the block
between the first fence and the second or the end, if there is a line in it.
From a response without a fence nothing is taken. -/
theorem extractCodeBlock_takes_block (response : String) :
    (∀ prose fence block rest,
      BlockParts isFence (Text.lines response) prose fence block rest →
        block ≠ [] →
        extractCodeBlock response = some ("\n".intercalate block)) ∧
      (NoFence response → extractCodeBlock response = none) := by
  constructor
  · intro prose fence block rest hparts hnonempty
    exact extractCodeBlock_of_block hparts.firstBlock_eq hnonempty
  · intro hnone
    exact extractCodeBlock_of_noBlock (firstBlock_of_unmarked hnone)

def twoBlocks : String :=
  "Here:\n```python\nprint(1)\nprint(2)\n```\nand\n```\nprint(3)\n```"

theorem twoBlocks_first_taken :
    extractCodeBlock twoBlocks = some "print(1)\nprint(2)" := by
  have hparts : BlockParts isFence (Text.lines twoBlocks) ["Here:"]
      "```python" ["print(1)", "print(2)"]
      ["```", "and", "```", "print(3)", "```"] := by
    constructor <;> decide +kernel
  exact (extractCodeBlock_takes_block twoBlocks).1 _ _ _ _ hparts (by simp)

/-- Nothing else is ever taken. -/
theorem exists_blockParts_of_extractCodeBlock {response code : String}
    (htaken : extractCodeBlock response = some code) :
    ∃ prose fence block rest,
      BlockParts isFence (Text.lines response) prose fence block rest ∧
        block ≠ [] ∧ code = "\n".intercalate block := by
  have hnonempty : firstBlock isFence (Text.lines response) ≠ [] := by
    intro hempty
    rw [extractCodeBlock_of_noBlock hempty] at htaken
    cases htaken
  have hfence : ∃ line ∈ Text.lines response, isFence line = true := by
    by_contra hnone
    refine hnonempty (firstBlock_of_unmarked fun line hline => ?_)
    exact Bool.eq_false_iff.mpr fun hfence => hnone ⟨line, hline, hfence⟩
  obtain ⟨line, hline, hmarker⟩ := hfence
  obtain ⟨prose, fence, rest, hparts⟩ := exists_blockParts hline hmarker
  refine ⟨prose, fence, _, rest, hparts, hnonempty, ?_⟩
  rw [extractCodeBlock_of_block rfl hnonempty] at htaken
  exact (Option.some.inj htaken).symm

end LlmCodeGenerator
end Sandbox
end Acdp
