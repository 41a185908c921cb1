/-
Host CPU counters (`read_host_cpu_sample` of `controller.rs`): the aggregate line of `/proc/stat`, as procfs returns it,
and the sample that the tick keeps of it.
-/
import IoThreadController.Model.Controller

namespace IoThreadController

/-- `procfs::CpuTime` of all CPUs together, in ticks; kernels before a counter was added do not report it -/
structure CpuTime where
  user : ℕ
  nice : ℕ
  system : ℕ
  idle : ℕ
  iowait : Option ℕ := none
  irq : Option ℕ := none
  softirq : Option ℕ := none
  steal : Option ℕ := none
  guest : Option ℕ := none
  guestNice : Option ℕ := none
deriving DecidableEq, Repr

/-- `read_host_cpu_sample`, after procfs has read the counters -/
def readHostCpuSample (total : CpuTime) : HostCpuSample :=
  let idleTicks := satAdd total.idle (total.iowait.getD 0)
  let totalTicks := satAdd total.user total.nice
  let totalTicks := satAdd totalTicks total.system
  let totalTicks := satAdd totalTicks total.idle
  let totalTicks := satAdd totalTicks (total.iowait.getD 0)
  let totalTicks := satAdd totalTicks (total.irq.getD 0)
  let totalTicks := satAdd totalTicks (total.softirq.getD 0)
  let totalTicks := satAdd totalTicks (total.steal.getD 0)
  let totalTicks := satAdd totalTicks (total.guest.getD 0)
  let totalTicks := satAdd totalTicks (total.guestNice.getD 0)
  { busyTicks := totalTicks - idleTicks, totalTicks }

end IoThreadController
