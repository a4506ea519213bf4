/-!
What the program tells about its work while it runs.
-/

namespace LiveTest

inductive LogLevel
  | debug
  | info
  | warn
deriving DecidableEq

structure LogLine where
  level : LogLevel
  text : String
deriving DecidableEq

namespace LogLine

def debug (text : String) : LogLine := ⟨.debug, text⟩

def info (text : String) : LogLine := ⟨.info, text⟩

def warn (text : String) : LogLine := ⟨.warn, text⟩

end LogLine
end LiveTest
