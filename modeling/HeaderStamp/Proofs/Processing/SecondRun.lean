import HeaderStamp.Proofs.Processing.Settling
import HeaderStamp.Proofs.Processing.Batch
import HeaderStamp.Proofs.Processing.Sniffing
import Mathlib.Data.List.Forall2

namespace HeaderStamp

namespace Processor

variable {processor : Processor} {before after : Machine} {path : Text}

theorem exists_ofConfig_builtin (year root : Text) (task : Task) :
    ∃ processor, ofConfig Config.builtin year root task = .ok processor := by
  obtain ⟨table, htable, -⟩ := exists_ok_of_any Config.builtin.table (fun _ ↦ true)
    (by decide +kernel)
  exact ⟨_, by rw [ofConfig, htable]; rfl⟩

end Processor

end HeaderStamp
