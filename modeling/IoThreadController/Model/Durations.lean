/-
Durations and poll counts (`config.rs`): `PollPeriod`, `PollConverter::polls` and `PollConverter::finish`, with the two
groups of durations that one converter takes at start-up: the controller's own (the end of `validate_config`) and the
threshold engine's (`ThresholdConfig::resolve_polls`).

A duration that `polls` receives is a `u64`, and it is changed in place: the result carries what is left in it.
-/
import IoThreadController.Model.Config
import IoThreadController.Model.Threshold

namespace IoThreadController

/-- `PollPeriod`; `nonzero` is the assertion of `PollPeriod::new` -/
structure PollPeriod where
  secs : ℕ
  roundUp : Bool
  nonzero : secs ≠ 0

structure PollConverter where
  poll : PollPeriod
  errors : List String := []

/-- `PollPeriod::converter` -/
def PollPeriod.converter (poll : PollPeriod) : PollConverter := { poll }

/-- what one conversion leaves behind: the duration in place, and the poll count returned -/
structure Converted where
  secs : ℕ
  polls : ℕ
deriving DecidableEq, Repr

namespace PollConverter

def push (converter : PollConverter) (error : String) : PollConverter :=
  { converter with errors := converter.errors ++ [error] }

def notMultipleText (name : String) (secs period below above : ℕ) : String :=
  s!"{name} ({secs}) is not a multiple of scale_poll_secs ({period}); nearest valid values: {below} or {above}"

def tooManyPollsText (name : String) (secs : ℕ) : String := s!"{name} ({secs}) spans too many polls"

/-- the end of `polls`: `u32::try_from` on the count -/
def fit (converter : PollConverter) (name : String) (secs polls : ℕ) : PollConverter × Converted :=
  if polls ≤ u32Max then (converter, ⟨secs, polls⟩)
  else (converter.push (tooManyPollsText name secs), ⟨secs, 0⟩)

/-- `PollConverter::polls` -/
def polls (converter : PollConverter) (name : String) (secs : ℕ) : PollConverter × Converted :=
  let period := converter.poll.secs
  let polls := secs / period
  if secs % period = 0 then converter.fit name secs polls
  else
    let below := polls * period
    let above := satAdd below period
    if converter.poll.roundUp then converter.fit name above (polls + 1)
    else (converter.push (notMultipleText name secs period below above), ⟨secs, 0⟩)

/-- `PollConverter::finish` -/
def finish (converter : PollConverter) : Except ConfigError Unit :=
  if converter.errors = [] then .ok () else .error (.notPollMultiple converter.errors)

end PollConverter

/-- the arguments of one call of `polls`; `fits` is the type of the duration -/
structure PollCall where
  name : String
  secs : ℕ
  fits : secs ≤ u64Max

/-- a sequence of calls on one converter -/
def PollConverter.pollsAll (converter : PollConverter) : List PollCall → PollConverter × List Converted
  | [] => (converter, [])
  | call :: calls =>
    let (converter, out) := converter.polls call.name call.secs
    let (converter, outs) := converter.pollsAll calls
    (converter, out :: outs)

/-! ## The durations of the daemon -/

/-- the durations of `ThresholdConfig`, in seconds -/
structure ThresholdDurations where
  scaleDownSustainSecs : ℕ := 30
  scaleValidationDelaySecs : ℕ := 20
  scaleValidationDelayPerThreadSecs : ℕ := 0
  postRevertUpGraceSecs : ℕ := 10
  postRevertUpRecoverySecs : ℕ := 20
  postRevertUpBackoffMaxSecs : ℕ := 300
  scaleDownBackoffMaxSecs : ℕ := 1200
deriving DecidableEq, Repr

/-- `ThresholdConfig::resolve_polls` -/
def ThresholdDurations.resolvePolls (cfg : ThresholdDurations) (converter : PollConverter) :
    PollConverter × ThresholdDurations × ThresholdPolls :=
  let (converter, sustain) := converter.polls "scale_down_sustain_secs" cfg.scaleDownSustainSecs
  let (converter, delay) := converter.polls "scale_validation_delay_secs" cfg.scaleValidationDelaySecs
  let (converter, perThread) :=
    converter.polls "scale_validation_delay_per_thread_secs" cfg.scaleValidationDelayPerThreadSecs
  let (converter, grace) := converter.polls "post_revert_up_grace_secs" cfg.postRevertUpGraceSecs
  let (converter, recovery) := converter.polls "post_revert_up_recovery_secs" cfg.postRevertUpRecoverySecs
  let (converter, upMax) := converter.polls "post_revert_up_backoff_max_secs" cfg.postRevertUpBackoffMaxSecs
  let (converter, downMax) := converter.polls "scale_down_backoff_max_secs" cfg.scaleDownBackoffMaxSecs
  (converter,
    { scaleDownSustainSecs := sustain.secs
      scaleValidationDelaySecs := delay.secs
      scaleValidationDelayPerThreadSecs := perThread.secs
      postRevertUpGraceSecs := grace.secs
      postRevertUpRecoverySecs := recovery.secs
      postRevertUpBackoffMaxSecs := upMax.secs
      scaleDownBackoffMaxSecs := downMax.secs },
    { scaleDownSustain := sustain.polls
      scaleValidationDelay := delay.polls
      scaleValidationDelayPerThread := perThread.polls
      postRevertUpGrace := grace.polls
      postRevertUpRecovery := recovery.polls
      postRevertUpBackoffMax := upMax.polls
      scaleDownBackoffMax := downMax.polls })

/-- the start-up conversions of `main`: the cooldown, the engine's durations with the same converter, then `finish` -/
def resolveDurations (poll : PollPeriod) (cfg : Config) (engine : ThresholdDurations) :
    Except ConfigError (Config × ThresholdDurations × ThresholdPolls) := do
  let (converter, cooldown) := poll.converter.polls "cooldown_secs" cfg.cooldownSecs
  let (converter, engine, polls) := engine.resolvePolls converter
  converter.finish
  return ({ cfg with cooldownSecs := cooldown.secs }, engine, polls)

end IoThreadController
