/-!
Notices: what is reported to the user while work goes on, in order.
-/
namespace DocBlocks

inductive Severity where
  | warning
  | error
  deriving DecidableEq, Repr

structure Notice where
  severity : Severity
  text : String
  deriving DecidableEq, Repr

namespace Notice

def warning (text : String) : Notice := ⟨.warning, text⟩

def error (text : String) : Notice := ⟨.error, text⟩

end Notice

end DocBlocks
