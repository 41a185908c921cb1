/-
Controller configuration (`config.rs`): the settings that the tick loop and its guards read, and `validate_config`.
-/
import IoThreadController.Model.Base

namespace IoThreadController

/-- `Config`, with the built-in defaults used when no configuration file exists -/
structure Config where
  minThreadCount : ℕ := 2
  maxThreadCount : ℕ := 8
  /-- host CPU fraction at or above which ordinary scale-up is blocked; zero disables the guard -/
  hostCpuScaleUpCeiling : ℚ := 9 / 10
  cooldownSecs : ℕ := 30
  scalePollSecs : ℕ := 10
  /-- emit a status line per tracked VM on every tick -/
  enablePerVmStatusLine : Bool := false
  /-- emit each per-VM status record on the main controller target -/
  enablePerVmMainLog : Bool := false
  /-- emit one aggregate status line on every tick -/
  enableAggregateStatusLine : Bool := true
  /-- cap on actuated instances per tick; zero disables it -/
  maxInstancesAdjustedPerPoll : ℕ := 0
  experimentalPsiMonitoring : Bool := false
  refreshCgroupOnEachRead : Bool := false
  dryRun : Bool := false
deriving DecidableEq, Repr

/-- `std::io::ErrorKind`, as far as the daemon tells the kinds apart -/
inductive ErrorKind where
  | notFound
  | other (text : String)
deriving DecidableEq, Repr

inductive ConfigError where
  | invalidValue (text : String)
  /-- every duration that `PollConverter` rejected, in the order of the conversions -/
  | notPollMultiple (errors : List String)
  | io (kind : ErrorKind)
  | serdeJson (text : String)
deriving DecidableEq, Repr

/-- the range checks of `validate_config`, in source order -/
def validateConfig (cfg : Config) : Except ConfigError Unit :=
  if cfg.scalePollSecs = 0 then .error (.invalidValue "scale_poll_secs must be > 0")
  else if ¬ (0 < cfg.minThreadCount ∧ cfg.minThreadCount ≤ cfg.maxThreadCount) then
    .error (.invalidValue "thread-count bounds must satisfy 0 < min_thread_count <= max_thread_count")
  else if ¬ (0 ≤ cfg.hostCpuScaleUpCeiling ∧ cfg.hostCpuScaleUpCeiling ≤ 1) then
    .error (.invalidValue "host_cpu_scale_up_ceiling_percent must be in [0, 100]")
  else .ok ()

theorem validateConfig_bounds {cfg : Config} (h : validateConfig cfg = .ok ()) :
    0 < cfg.minThreadCount ∧ cfg.minThreadCount ≤ cfg.maxThreadCount := by
  unfold validateConfig at h
  split_ifs at h with _ hb
  exact hb

theorem validateConfig_default : validateConfig {} = .ok () := by
  decide +kernel

end IoThreadController
