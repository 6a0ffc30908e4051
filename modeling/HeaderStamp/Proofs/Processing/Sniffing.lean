import HeaderStamp.Processing.Processor
import HeaderStamp.Proofs.Insertion.Idempotence
import HeaderStamp.Proofs.Insertion.Splice
import HeaderStamp.Proofs.Text.Utf8

namespace HeaderStamp

theorem sourceText_eq_ok_iff {path content : Text} {bytes : Bytes} :
    sourceText path bytes = .ok content ↔
      looksBinary bytes = false ∧ bytes = Utf8.encode content := by
  rw [sourceText, ← Utf8.decode_eq_ok_iff]
  cases looksBinary bytes with
  | true => simp
  | false => cases Utf8.decode bytes <;> simp [Except.mapError]

namespace Text

end Text

namespace Inserter

end Inserter

variable {directive : Text}

end HeaderStamp
