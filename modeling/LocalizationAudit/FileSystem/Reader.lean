import LocalizationAudit.Error
import LocalizationAudit.Path

/-! What a scan needs of a file system: reading, from a store that may keep track of it. -/

namespace LocalizationAudit

structure Reader (Store : Type) where
  read : Store → Path → Except ReadError Bytes × Store

def isHidden (name : String) : Bool :=
  name.toList.head? == some '.'

end LocalizationAudit
