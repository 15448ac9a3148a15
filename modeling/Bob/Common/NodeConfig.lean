/-
# The node configuration

Each node reads its own file and checks it twice: on its own terms with
`NodeConfig.validate`, and against the cluster file with `Cluster.check`, which
also hands the node its address and disks. Durations, socket addresses and the
printing of a period belong to other packages and enter as parameters; no
result about the checks depends on what they answer.
-/

import Bob.Common.ClusterConfig

namespace Bob.Configs

open Bob.Math

/-- A span of time, counted in nanoseconds as `std::time::Duration` does. -/
structure Duration where
  nanos : ℕ
  deriving DecidableEq, Repr

/-- Whole seconds, the fraction dropped. -/
def Duration.asSecs (d : Duration) : ℕ := d.nanos / 10 ^ 9

def Duration.ofDays (days : ℕ) : Duration := ⟨days * 86400 * 10 ^ 9⟩

/-- The functions of other packages that the checks call. -/
structure Externals where
  parseUri : UriParser
  /-- `parse::<humantime::Duration>`, with the text of its error. -/
  parseHumanDuration : String → Except String Duration
  /-- `parse::<std::net::SocketAddr>`, with the text of its error. -/
  parseSocketAddr : String → Except String Unit
  /-- How `chrono` prints a duration. -/
  showDuration : Duration → String

/-- How a function can stop before it returns: with an error for its caller, or
with a panic. -/
inductive Stop
  | err (message : String)
  | panic (message : String)
  deriving DecidableEq, Repr

/-- The text the yaml reader gives a field without a value. -/
def placeholder : String := "~"

/-- Settings of the pearl backend. -/
structure BackendSettings where
  rootDirName : String
  alienRootDirName : String
  timestampPeriod : String
  createPearlWaitDelay : String
  deriving DecidableEq, Repr

/-- Parameters of the metrics exporters that are checked at start. -/
structure MetricsConfig where
  name : Option String
  graphiteEnabled : Bool
  graphite : Option String
  metricsPrefix : Option String
  deriving DecidableEq, Repr

/-- The pearl section of the node file. -/
structure PearlConfig where
  blobFileNamePrefix : String
  failRetryTimeout : String
  alienDisk : Option String
  settings : BackendSettings
  skipHoldersByTimestampStepWhenReading : Option String
  deriving DecidableEq, Repr

/-- The storage engines a node can run. -/
inductive BackendType
  | inMemory
  | stub
  | pearl
  deriving DecidableEq, Repr

/-- The node file, with the address and the disks that the cluster file adds. -/
structure NodeConfig where
  logConfig : String
  usersConfig : String
  name : String
  quorum : ℕ
  operationTimeout : String
  checkInterval : String
  clusterPolicy : String
  backendType : String
  pearl : Option PearlConfig
  metrics : Option MetricsConfig
  bind : String := ""
  disks : List DiskPath := []
  deriving DecidableEq, Repr

/-! ## The node file on its own -/

section Validate

variable (ext : Externals)

/-- Lift a check that can only fail with an error. -/
def orErr (check : Except String Unit) : Except Stop Unit := check.mapError .err

namespace BackendSettings

def checkUnset (settings : BackendSettings) : Except String Unit :=
  ensure (!(settings.alienRootDirName = placeholder || settings.createPearlWaitDelay = placeholder
    || settings.rootDirName = placeholder || settings.timestampPeriod = placeholder))
    "some of the fields present, but empty"

/-- The longest span `chrono` represents, in nanoseconds. -/
def chronoMax : ℕ := (2 ^ 63 - 1) * 10 ^ 6

/-- The period parses and is at most a year. A span `chrono` cannot hold panics
before it can be compared. -/
def checkTimestampPeriod (settings : BackendSettings) : Except Stop Unit :=
  match ext.parseHumanDuration settings.timestampPeriod with
  | .error e =>
    .error (.err s!"field 'timestamp_period' for 'backend settings config' is not valid: {e}")
  | .ok period =>
    if period.nanos > chronoMax then .error (.panic "smth wrong with time")
    -- the message says one year, the bound is 366 days
    else if period.nanos > (Duration.ofDays 366).nanos then
      .error (.err ("field 'timestamp_period' for 'backend.settings config' is greater than " ++
        s!"1 year ({ext.showDuration period})"))
    else .ok ()

def validate (settings : BackendSettings) : Except Stop Unit := do
  orErr settings.checkUnset
  orErr (ensure (!settings.rootDirName.isEmpty)
    "field 'root_dir_name' for backend.settings config is empty")
  orErr (ensure (!settings.alienRootDirName.isEmpty)
    "field 'alien_root_dir_name' for 'backend.settings config' is empty")
  settings.checkTimestampPeriod ext
  orErr (ensure (ext.parseHumanDuration settings.createPearlWaitDelay).isOk
    ("field 'create_pearl_wait_delay' for backend.settings config is not valid " ++
      s!"({settings.createPearlWaitDelay})"))

end BackendSettings

namespace PearlConfig

def checkUnset (pearl : PearlConfig) : Except String Unit := do
  ensure (pearl.blobFileNamePrefix ≠ placeholder) "'blob_file_name_prefix' present, but empty"
  ensure (pearl.failRetryTimeout ≠ placeholder) "'fail_retry_timeout' present, but empty"

/-- The step for skipping old partitions must be a duration when it is given. -/
def checkSkipStep (pearl : PearlConfig) : Except String Unit :=
  match pearl.skipHoldersByTimestampStepWhenReading with
  | none => .ok ()
  | some field =>
    ensure (ext.parseHumanDuration field).isOk
      s!"field 'skip_holders_by_timestamp_step_when_reading' for 'config' is not valid ({field})"

def validate (pearl : PearlConfig) : Except Stop Unit := do
  orErr pearl.checkUnset
  orErr (pearl.checkSkipStep ext)
  orErr (ensure (ext.parseHumanDuration pearl.failRetryTimeout).isOk
    (s!"field 'fail_retry_timeout' for 'config' is not a valid duration " ++
      s!"('{pearl.failRetryTimeout}')"))
  pearl.settings.validate ext

end PearlConfig

namespace MetricsConfig

def checkUnset (metrics : MetricsConfig) : Except String Unit :=
  ensure (!(metrics.graphiteEnabled && metrics.graphite.isNone))
    "graphite is enabled but no graphite address has been provided"

def checkOptionalFields (metrics : MetricsConfig) : Except String Unit :=
  ensure (!([metrics.name, metrics.metricsPrefix].any fun field => field.any (·.isEmpty)))
    "'name' or 'prefix' field for 'metrics config' is empty"

/-- The `unwrap` on the address is reached with graphite enabled only. -/
def checkGraphiteAddr (metrics : MetricsConfig) : Except Stop Unit :=
  if !metrics.graphiteEnabled then .ok ()
  else match metrics.graphite with
    | none => .error (.panic "called `Option::unwrap()` on a `None` value")
    | some address =>
      orErr ((ext.parseSocketAddr address).mapError fun e =>
        s!"field 'graphite': {e} for 'metrics config' is invalid")

/-- Letters, dots and underscores, with no empty component. -/
def checkGraphitePrefix (text : List Char) : Except String Unit :=
  ensure (!(text.head? = some '.' || text.getLast? = some '.' || ['.', '.'] <:+: text
    || text.any fun c => !(c.isLower || c.isUpper || c = '.' || c = '_')))
    "Graphite 'prefix' is invalid"

/-- Placeholders are replaced before the characters are checked. -/
def checkPrefix (metrics : MetricsConfig) : Except String Unit :=
  match metrics.metricsPrefix with
  | none => .ok ()
  | some text =>
    let text := ["\x7blocal_address\x7d", "\x7bnode_name\x7d"].foldl
      (fun acc field => acc.replace field "_") text
    let text := if metrics.name.isSome then text.replace "\x7bmetrics_name\x7d" "_" else text
    checkGraphitePrefix text.toList

def validate (metrics : MetricsConfig) : Except Stop Unit := do
  orErr metrics.checkUnset
  orErr metrics.checkOptionalFields
  metrics.checkGraphiteAddr ext
  orErr metrics.checkPrefix

end MetricsConfig

namespace NodeConfig

/-- A field given without a value. -/
def checkUnsetSingle (value fieldName : String) : Except String Unit :=
  ensure (value ≠ placeholder) s!"'{fieldName}' present in node config, but empty"

def checkUnset (node : NodeConfig) : Except String Unit := do
  checkUnsetSingle node.backendType "backend_type"
  checkUnsetSingle node.checkInterval "check_interval"
  checkUnsetSingle node.clusterPolicy "cluster_policy"
  checkUnsetSingle node.logConfig "log_config"
  checkUnsetSingle node.usersConfig "users_config"
  checkUnsetSingle node.name "name"
  checkUnsetSingle node.operationTimeout "operation_timeout"
  checkUnsetSingle node.backendType "backend_type"

def backendResult (node : NodeConfig) : Except String BackendType :=
  if node.backendType = "in_memory" then .ok .inMemory
  else if node.backendType = "stub" then .ok .stub
  else if node.backendType = "pearl" then .ok .pearl
  else .error s!"unknown backend type: {node.backendType}"

/-- The pearl section is required and checked when pearl is the backend. -/
def checkPearl (node : NodeConfig) : Except Stop Unit :=
  match node.backendResult with
  | .ok .pearl =>
    match node.pearl with
    | some pearl => pearl.validate ext
    | none => .error (.err "selected pearl backend, but pearl config not set")
  -- an unknown backend is not reported here but by `prepare`
  | _ => .ok ()

/-- A field that must hold a duration. -/
def checkDuration (text label : String) : Except String Unit :=
  match ext.parseHumanDuration text with
  | .ok _ => .ok ()
  | .error e => .error s!"field '{label}' for 'config' is not valid: {e}"

def validate (node : NodeConfig) : Except Stop Unit := do
  orErr node.checkUnset
  node.checkPearl ext
  orErr (checkDuration ext node.operationTimeout "timeout")
  orErr (checkDuration ext node.checkInterval "check_interval")
  orErr (ensure (!node.name.isEmpty) "field 'name' for 'config' is empty")
  orErr (ensure (!node.clusterPolicy.isEmpty) "field 'cluster_policy' for 'config' is empty")
  orErr (ensure (!node.usersConfig.isEmpty) "field 'users_config' for 'config' is empty")
  orErr (ensure (!node.logConfig.isEmpty) "field 'log_config' for 'config' is empty")
  orErr (ensure (node.quorum ≠ 0) "field 'quorum' for 'config' must be greater than 0")
  match node.metrics with
  | none => .ok ()
  | some metrics => metrics.validate ext

/-! ## The node file against the cluster file -/

/-- Take over the address and the disks from the cluster file. The source writes
them through shared cells; here the prepared configuration is returned. -/
def prepare (node : NodeConfig) (found : ClusterNode) : Except Stop NodeConfig :=
  let prepared := { node with bind := found.address, disks := found.disks }
  match node.backendResult with
  | .error e => .error (.err e)
  | .ok .pearl =>
    -- the retry timeout is parsed again, now with `expect`
    if node.pearl.all fun pearl => (ext.parseHumanDuration pearl.failRetryTimeout).isOk then
      .ok prepared
    else .error (.panic "parse humantime duration")
  | .ok _ => .ok prepared

/-- The alien disk of a pearl node must be one of its disks. -/
def checkAlienDisk (node : NodeConfig) (found : ClusterNode) : Except Stop Unit :=
  match node.backendResult, node.pearl with
  | .ok .pearl, none => .error (.panic "get pearl config")
  | .ok .pearl, some pearl =>
    match pearl.alienDisk with
    | none => .ok ()
    | some alienDisk =>
      orErr (ensure (found.disks.any fun d => alienDisk = d.name.str)
        s!"cannot find disk {alienDisk.quote} for node {node.name.quote} in cluster config")
  | _, _ => .ok ()

end NodeConfig

/-- Check a node file against the cluster, and prepare it. -/
def Cluster.check (cluster : Cluster) (node : NodeConfig) : Except Stop NodeConfig :=
  match cluster.nodes.find? (fun n => n.name = node.name) with
  | none => .error (.err s!"cannot find node: {node.name} in cluster config")
  | some found =>
    match cluster.vdisks.find? (fun vdisk => vdisk.replicas.length < node.quorum) with
    | some badVdisk =>
      .error (.err s!"Quorum is more than amount of replicas for VDisk with id {badVdisk.id}")
    | none => do
      node.checkAlienDisk found
      node.prepare ext found

end Validate

/-! ## What the checks guarantee -/

variable {ext : Externals} {cluster : Cluster} {node prepared : NodeConfig}

/-- A node file that passes its own checks asks for a quorum of at least one. -/
theorem NodeConfig.one_le_quorum (accepted : node.validate ext = .ok ()) : 1 ≤ node.quorum := by
  simp only [validate, seq_eq_ok_iff, orErr, mapError_eq_ok_iff, ensure_eq_ok_iff] at accepted
  have nonzero := accepted.2.2.2.2.2.2.2.2.1
  simp only [ne_eq, decide_not, Bool.not_eq_eq_eq_not, Bool.not_true, decide_eq_false_iff_not]
    at nonzero
  omega

private theorem prepare_eq_ok {found : ClusterNode}
    (accepted : node.prepare ext found = .ok prepared) :
    prepared = { node with bind := found.address, disks := found.disks } := by
  unfold NodeConfig.prepare at accepted
  split at accepted
  · cases accepted
  · split_ifs at accepted
    exact (Except.ok.inj accepted).symm
  · exact (Except.ok.inj accepted).symm

/-- What `Cluster.check` establishes about the node it prepares. -/
structure Checked (cluster : Cluster) (node prepared : NodeConfig) (found : ClusterNode) :
    Prop where
  /-- The node is in the cluster file under its name. -/
  listed : found ∈ cluster.nodes
  named : found.name = node.name
  /-- No vdisk has fewer replicas than the quorum. -/
  quorum_le : ∀ vdisk ∈ cluster.vdisks, node.quorum ≤ vdisk.replicas.length
  /-- The node takes over address and disks. -/
  taken : prepared = { node with bind := found.address, disks := found.disks }
  /-- The alien disk is one of the disks taken over. -/
  alien : ∀ pearl alienDisk, node.backendResult = .ok .pearl → node.pearl = some pearl →
    pearl.alienDisk = some alienDisk → ∃ disk ∈ found.disks, alienDisk = disk.name.str

theorem Cluster.exists_checked (accepted : cluster.check ext node = .ok prepared) :
    ∃ found, Checked cluster node prepared found := by
  unfold Cluster.check at accepted
  split at accepted
  · cases accepted
  rename_i found hfound
  split at accepted
  · cases accepted
  rename_i enough
  obtain ⟨⟨⟩, alienDisk, rest⟩ := bind_eq_ok_iff.mp accepted
  refine ⟨found, List.mem_of_find?_eq_some hfound, by simpa using List.find?_some hfound,
    fun vdisk hvdisk => ?_, prepare_eq_ok rest, fun pearl alien hbackend hpearl halien => ?_⟩
  · simpa using List.find?_eq_none.mp enough vdisk hvdisk
  · unfold NodeConfig.checkAlienDisk at alienDisk
    simp only [hbackend, hpearl, halien, orErr, mapError_eq_ok_iff, ensure_eq_ok_iff,
      List.any_eq_true, decide_eq_true_eq] at alienDisk
    exact alienDisk

end Bob.Configs
