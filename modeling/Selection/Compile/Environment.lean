import Selection.Compile.Context
import Selection.Compile.Settings

/-! # Environments

What a criterion is compiled in: the settings, the context if there is one, and the time that the
system's clock tells.
-/

namespace Selection

/-- What a criterion is compiled in. -/
structure Environment where
  settings : Settings := {}
  context : Option Context := none
  systemTime : DateTime

namespace Environment

/-- The current time of the clock of the settings. -/
def now (env : Environment) : DateTime :=
  env.settings.clock.now env.systemTime

/-- The value of a path in the context. Without a context its first segment names nothing. -/
def lookup (env : Environment) (path : String) : Except CompileError Value :=
  match env.context with
  | some context => context.resolve path
  | none => .error (.contextLookupFailure path ((Text.segments path).headD path))

end Environment

end Selection
