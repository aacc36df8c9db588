import RecordStore.Config.File
import RecordStore.Environment.File

/-! # Settings in force

The settings of a directory come from its configuration file, and environment variables override
them where they have a value that makes sense.  An environment file in the directory defines
variables that are not set otherwise. -/

namespace RecordStore

/-- What a directory holds of configuration. -/
structure ConfigDirectory where
  path : String
  /-- The text of the configuration file. -/
  file? : Option String
  /-- The text of the environment file. -/
  definitions? : Option String

namespace Config

/-- The name of the configuration file. -/
def fileName : String := "relcache.toml"

/-- The variable that turns the cache on or off. -/
def enabledVariable : String := "RELCACHE_CACHE_ENABLED"

/-- The variable that sets the number of keys in one query. -/
def batchVariable : String := "RELCACHE_MAX_BATCH_SIZE"

/-- The truth value of this name. -/
def readBool? (s : String) : Option Bool :=
  if s = "true" then some true else if s = "false" then some false else none

/-- The number of 64 bits with these digits, of which there is at least one; a plus sign may
precede. -/
def readCount? (s : String) : Option Nat :=
  let ds := match s.toList with
    | '+' :: ds => ds
    | ds => ds
  let n := Text.digitsValue 10 ds
  if !ds.isEmpty ∧ ds.all Char.isDigit ∧ n < 0x1_0000_0000_0000_0000 then some n else none

/-- The settings after the overrides of environment variables; a batch size of zero overrides
nothing. -/
def overriddenBy (c : Config) (env : Environment) : Config :=
  let enabled := ((env.get? enabledVariable).bind readBool?).getD c.cache.enabled
  let batchSize := ((env.get? batchVariable).bind readCount?).filter (0 < ·)
  { c with maxBatchSize := batchSize.or c.maxBatchSize, cache := { c.cache with enabled } }

/-- The settings of a directory under an environment. -/
def load (directory : ConfigDirectory) (env : Environment) : Except StoreError Config :=
  let env := match directory.definitions? with
    | some text => env.load text
    | none => env
  match directory.file? with
  | none => .error (.configuration (.missingFile (directory.path ++ "/" ++ fileName)))
  | some text => (parse text).map (·.overriddenBy env)

end Config

end RecordStore
