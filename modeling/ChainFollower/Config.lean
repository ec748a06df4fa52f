import ChainFollower.Block
import ChainFollower.Store.FileTree
import ChainFollower.Sync.Retry
import ChainFollower.Text.Decimal
import ChainFollower.Text.Utf8

namespace ChainFollower

/-- Environment variables and their values. -/
abbrev Environment := List (String × Bytes)

namespace Environment

/-- A variable that is not UTF-8 counts as absent. -/
def text? (e : Environment) (key : String) : Option String := (e.lookup key).bind Utf8.decode?

def read? {α : Type} (e : Environment) (key : String) (parse : String → Option α) : Option α :=
  (e.text? key).bind parse

end Environment

def bool? (s : String) : Option Bool :=
  if s = "true" then some true else if s = "false" then some false else none

/-- A setting keeps its default where its variable does not hold what it should. -/
structure DaemonConfig where
  endpoint : String
  /-- The folder for the stores of all games; they stay in memory where it is absent. -/
  dataDir : Option String
  logDir : String
  pruning : Option UInt64
  retry : RetryPolicy
  /-- Notifications are counted but not passed on. -/
  suppressed : Bool
  deriving DecidableEq

namespace DaemonConfig

open FileTree (joinPath)

def standardEndpoint : String := "memory://gamesync/blocks"

/-- The folder a variable names if it is absolute, else one below the home folder. -/
def userFolder (e : Environment) (key fallback : String) : Option String :=
  match (e.text? key).filter fun dir => dir.startsWith "/" with
  | some dir => some dir
  | none =>
    ((e.text? "HOME").filter fun home => !home.isEmpty).map fun home => joinPath home fallback

def standardDataDir (e : Environment) : String :=
  match userFolder e "XDG_DATA_HOME" ".local/share" with
  | some dir => joinPath dir "gamesync"
  | none => "./gamesync_data"

def standardLogDir (e : Environment) : String :=
  match userFolder e "XDG_CACHE_HOME" ".cache" with
  | some dir => joinPath (joinPath dir "gamesync") "logs"
  | none => "/tmp/gamesync/logs"

def standard (e : Environment) : DaemonConfig :=
  { endpoint := standardEndpoint, dataDir := none, logDir := standardLogDir e, pruning := none
    retry := .standard, suppressed := false }

/-- A pruning depth; a negative number turns pruning off. -/
def depth? (n : Int) : Option UInt64 := if 0 ≤ n then some (UInt64.ofNat n.toNat) else none

def retryOf (e : Environment) : RetryPolicy :=
  let p := RetryPolicy.standard
  { p with
    maxAttempts := match e.read? "GAMESYNC_RETRY_ATTEMPTS" Decimal.u32? with
      | some n => if n = 0 then 1 else n
      | none => p.maxAttempts
    initialBackoff := match e.read? "GAMESYNC_RETRY_BACKOFF_MS" Decimal.u64? with
      | some ms => .ofMillis ms
      | none => p.initialBackoff }

def ofEnvironment (e : Environment) : DaemonConfig :=
  let c := standard e
  { endpoint := (e.text? "GAMESYNC_ENDPOINT").getD c.endpoint
    dataDir := (e.text? "GAMESYNC_DATA_DIR").map fun dir =>
      if dir = "default" then standardDataDir e else dir
    logDir := (e.text? "GAMESYNC_LOG_DIR").getD c.logDir
    pruning := (e.read? "GAMESYNC_ENABLE_PRUNING" Decimal.i64?).bind depth?
    retry := retryOf e
    suppressed := (e.read? "GAMESYNC_SUPPRESS_DISPATCH" bool?).getD c.suppressed }

/-- The folder of a game's store. -/
def gameDir (c : DaemonConfig) (game : String) : Option String :=
  c.dataDir.map fun dir => joinPath dir game

end DaemonConfig

structure SimulationConfig where
  network : Network
  blocks : UInt64
  interval : Duration
  /-- A reorganization in every n-th round; none at zero. -/
  reorgEvery : UInt64
  reorgDepth : UInt64
  /-- Every n-th notification is lost; none at zero. -/
  dropEvery : UInt64
  deriving DecidableEq

namespace SimulationConfig

def standard : SimulationConfig :=
  { network := .regtest, blocks := 20, interval := .ofMillis 200, reorgEvery := 7, reorgDepth := 2
    dropEvery := 11 }

def ofEnvironment (e : Environment) : SimulationConfig :=
  let number (key : String) (default : UInt64) := (e.read? key Decimal.u64?).getD default
  { network := (e.read? "GAMESYNC_SIM_CHAIN" Network.ofName?).getD standard.network
    blocks := number "GAMESYNC_SIM_BLOCKS" standard.blocks
    interval := ((e.read? "GAMESYNC_SIM_INTERVAL_MS" Decimal.u64?).map .ofMillis).getD
      standard.interval
    reorgEvery := number "GAMESYNC_SIM_REORG_EVERY" standard.reorgEvery
    reorgDepth := number "GAMESYNC_SIM_REORG_DEPTH" standard.reorgDepth
    dropEvery := number "GAMESYNC_SIM_DROP_EVERY" standard.dropEvery }

end SimulationConfig

end ChainFollower
