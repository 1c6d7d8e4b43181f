import MayflyHelper.Answers
import MayflyHelper.Refinement
import MayflyHelper.Polling
import MayflyHelper.Semantics.Handler

/-! The operations as they are deployed: the filesystem calls go to the host,
and each of the three `sshd` controls is a command that is spawned and polled.
An operation sees no more of this than the verdicts, so what is proved of it
against the abstract host holds of the deployed one. -/
namespace MayflyHelper

open OracleProgram Clock

/-- What the helper calls in the end. -/
inductive SystemCall where
  | fs (call : FsCall)
  | process (call : ProcessCall)

/-- A call about a process need not return. -/
@[reducible]
def SystemCall.Reply : SystemCall → Type
  | .fs call => call.Reply
  | .process call => Option call.Reply

/-- Why an operation does not come to its end: the runner stopped, or a call
it waits in never returns. -/
inductive Halt where
  | stopped (cause : Stopped)
  | blocked

/-- A call of the runner. -/
def askProcess (call : ProcessCall) : Fallible SystemCall SystemCall.Reply Halt call.Reply := do
  match ← ExceptT.lift (Program.call (SystemCall.process call)) with
  | some reply => pure reply
  | none => throw .blocked

/-- `HelperOps` over `SystemSshdControl`. A command that panics or never
returns ends the operation. -/
def deployed (control : SshdControlConfig) (fuel : Nat) :
    (call : Call) → Fallible SystemCall SystemCall.Reply Halt call.Reply
  | .fs call => ExceptT.lift (Program.call (SystemCall.fs call))
  | .sshd call => do
      match ← (SystemSshdControl.control control fuel call).interpret askProcess with
      | .ok verdict => pure verdict
      | .error cause => throw (.stopped cause)

/-- The command of a control. Nothing of a request goes into it. -/
def SshdControlConfig.command (control : SshdControlConfig) : SshdCall → Command
  | .validateConfig => ⟨control.sshdBinary, ["-t".toList]⟩
  | .reload => ⟨control.systemctlBinary, ["reload".toList, control.serviceName]⟩
  | .isActive => ⟨control.systemctlBinary, ["is-active".toList, control.serviceName]⟩

open SystemSshdControl (Replies)

/-- What comes of a spawned command: what the runner is told of it, whether
its output ever reaches the end, which it does not while some process holds
the pipe open, and whether it can be waited for to its end. -/
structure Conduct where
  replies : Replies
  closes : Bool
  ends : Bool

/-- Whether a call about the command returns. -/
def Conduct.returns (conduct : Conduct) : ProcessCall → Bool
  | .readStderr => conduct.closes
  | .wait => conduct.ends
  | _ => true

/-- A machine the helper is deployed on: how its filesystem settles what the
tree does not, and what comes of the commands. The number is how many commands
were spawned before; a command may look at the files, and need not start. -/
structure Site where
  umask : Nat
  tempName : Nat → (fs : Fs) → (dir : Loc) →
    {name : Name // tempPrefix.isPrefixOf name ∧ fs.node (name :: dir) = none}
  fails : FsKind → Nat → Bool
  control : SshdControlConfig
  behave : Nat → Fs → Command → Except IoErrorKind Conduct

/-- The state of the machine: the files, the calls made of each kind, the
commands spawned, latest first, and the last child with the calls made about
it. -/
structure Station where
  fs : Fs
  count : FsKind → Nat
  spawned : List Command
  child : Conduct
  calls : List ProcessCall

namespace Station

def advance (station : Station) (kind : FsKind) (fs : Fs) : Station :=
  { station with fs, count := fun k => if k = kind then station.count k + 1 else station.count k }

/-- A command was spawned, and calls were made about it. -/
def running (station : Station) (command : Command) (child : Conduct) (calls : List ProcessCall) :
    Station :=
  { station with spawned := command :: station.spawned, child, calls }

/-- A call about the child that is running. -/
def ask (station : Station) (call : ProcessCall) : Option (ProcessCall.Reply call) × Station :=
  (if station.child.returns call then some (station.child.replies.answer call station.calls)
   else none,
    { station with calls := station.calls ++ [call] })

end Station

/-- The child exits with success before the deadline, as far as the polls and
the clock can tell. -/
def SystemSshdControl.Replies.Succeeds (r : Replies) (deadline : Instant) : Prop :=
  ∃ n status, (∀ k < n, r.polls k = .ok none) ∧ r.polls n = .ok (some status) ∧
    status.success = true ∧
    ∀ k < n, ¬deadline ≤ r.clock k

namespace Site
variable (site : Site)

/-- The host of the site, given what `sshd` reports. -/
def hostWith (sshd : Nat → Fs → SshdCall → Except Error Unit) : Host where
  umask := site.umask
  tempName := site.tempName
  fails := site.fails
  sshd := sshd

/-- The files alone. -/
def files : Host := site.hostWith fun _ _ call => .error (SystemSshdControl.Scenario.failure call)

def oracle : Oracle SystemCall SystemCall.Reply Station
  | .fs call, station =>
      if site.files.failsAt call (station.count call.kind) then
        (call.failed, station.advance call.kind station.fs)
      else
        let outcome := call.perform site.files (station.count call.kind) station.fs
        (outcome.1, station.advance call.kind outcome.2)
  | .process (.spawn command), station =>
      match site.behave station.spawned.length station.fs command with
      | .ok child => (some (.ok ()), station.running command child [.spawn command])
      | .error kind => (some (.error kind), { station with spawned := command :: station.spawned })
  | .process .now, station => station.ask .now
  | .process .tryWait, station => station.ask .tryWait
  | .process (.sleep span), station => station.ask (.sleep span)
  | .process .readStderr, station => station.ask .readStderr
  | .process .kill, station => station.ask .kill
  | .process .wait, station => station.ask .wait

/-- The output of every command reaches its end and every child can be waited
for; every deadline can be computed, and the clock reaches it. -/
structure Responsive : Prop where
  closes : ∀ n fs command child, site.behave n fs command = .ok child → child.closes = true
  ends : ∀ n fs command child, site.behave n fs command = .ok child → child.ends = true
  deadline : ∀ n fs command child, site.behave n fs command = .ok child →
    ∃ deadline, child.replies.start.checkedAdd site.control.commandTimeout = some deadline ∧
      ∃ k, deadline ≤ child.replies.clock k

/-- The `n`-th command is started and succeeds in time. -/
def Succeeds (n : Nat) (fs : Fs) (command : Command) : Prop :=
  ∃ child deadline, site.behave n fs command = .ok child ∧
    child.replies.start.checkedAdd site.control.commandTimeout = some deadline ∧
      child.replies.Succeeds deadline

open Classical in
/-- The abstract host: only the verdicts of the commands are left. -/
noncomputable def host : Host := site.hostWith fun n fs call =>
  if site.Succeeds n fs (site.control.command call) then .ok ()
  else .error (SystemSshdControl.Scenario.failure call)

/-- The machine and the abstract world: the same files and calls, and a command
for every control. -/
structure Mirrors (station : Station) (w : World) : Prop where
  fs : station.fs = w.fs
  count : station.count = w.count
  spawned : station.spawned = w.events.map fun event => site.control.command event.call

variable {site} {station : Station} {w : World}

theorem host_sshd_of_succeeds {n : Nat} {fs : Fs} {call : SshdCall}
    (h : site.Succeeds n fs (site.control.command call)) : site.host.sshd n fs call = .ok () := by
  simp only [host, hostWith, if_pos h]

theorem host_sshd_of_not_succeeds {n : Nat} {fs : Fs} {call : SshdCall}
    (h : ¬site.Succeeds n fs (site.control.command call)) :
    site.host.sshd n fs call = .error (SystemSshdControl.Scenario.failure call) := by
  simp only [host, hostWith, if_neg h]

theorem perform_host (call : FsCall) (n : Nat) (fs : Fs) :
    call.perform site.host n fs = call.perform site.files n fs := by
  cases call <;> rfl

/-- A call other than a spawn is one about the child. -/
theorem oracle_process {call : ProcessCall} (h : ∀ command, call ≠ .spawn command) :
    site.oracle (.process call) station = station.ask call := by
  cases call with
  | spawn command => exact absurd rfl (h command)
  | now => rfl
  | tryWait => rfl
  | sleep span => rfl
  | readStderr => rfl
  | kill => rfl
  | wait => rfl

/-- A call that returns is answered. -/
theorem run_askProcess {call : ProcessCall} {reply : call.Reply} {station' : Station}
    (h : site.oracle (.process call) station = (some reply, station')) :
    Program.run site.oracle (askProcess call).run station = (.ok reply, station') := by
  have hCall : Program.run site.oracle (Program.call (SystemCall.process call)) station =
      (some reply, station') := h
  rw [askProcess, Fallible.run_lift_bind, hCall]
  rfl

theorem run_call_asked {call : ProcessCall} {reply : call.Reply} {station' : Station}
    (h : site.oracle (.process call) station = (some reply, station')) :
    Program.run site.oracle ((Program.call call).interpret askProcess).run station =
      (.ok reply, station') :=
  (Fallible.run_bind_ok (run_askProcess h)).trans rfl

end Site

namespace SystemSshdControl

/-- The polling loop starts no command. -/
theorem within_awaitChild (deadline : Instant) (fuel : Nat) :
    (awaitChild deadline fuel).Within (fun call => ∀ command, call ≠ .spawn command) := by
  induction fuel with
  | zero => trivial
  | succ fuel ih =>
      refine ⟨by simp, fun reply => ?_⟩
      rcases reply with _ | _ | status
      · exact ⟨by simp, fun _ => ⟨by simp, fun _ => trivial⟩⟩
      · refine ⟨by simp, fun reading => ?_⟩
        show Program.Within _ (if deadline ≤ reading then _ else _)
        split
        · exact ⟨by simp, fun _ => ⟨by simp, fun _ => trivial⟩⟩
        · exact ⟨by simp, fun _ => ih⟩
      · refine ⟨by simp, fun stderr => ?_⟩
        show Program.Within _ (if status.success then _ else _)
        split <;> trivial

theorem control_eq (control : SshdControlConfig) (fuel : Nat) (call : SshdCall) :
    SystemSshdControl.control control fuel call = (do
      let ended ← run control (control.command call) fuel
      pure (ended.map (verdict (Scenario.failure call)))) := by
  cases call <;> rfl

end SystemSshdControl

namespace Site
variable {site : Site} {station : Station} {w : World}

open SystemSshdControl

/-- The polling loop of a child whose calls all return, told by the trace. -/
theorem run_awaitChild_asked {child : Conduct} (hCloses : child.closes = true)
    (hEnds : child.ends = true)
    (station : Station) (command : Command) (deadline : Instant) (fuel : Nat)
    (calls : List ProcessCall) :
    Program.run site.oracle ((awaitChild deadline fuel).interpret askProcess).run
        (station.running command child calls) =
      (.ok (Program.run child.replies.oracle (awaitChild deadline fuel) calls).1,
        station.running command child
          (Program.run child.replies.oracle (awaitChild deadline fuel) calls).2) := by
  refine Fallible.within_interpret (within_awaitChild deadline fuel) child.replies.oracle askProcess
    (station.running command child) (fun call hCall calls => run_askProcess ?_) calls
  have hReturns : child.returns call = true := by
    cases call with
    | readStderr => exact hCloses
    | wait => exact hEnds
    | _ => rfl
  rw [oracle_process hCall]
  show (if child.returns call then some _ else none, _) = _
  rw [hReturns]
  rfl

/-- A command on the site: with enough fuel the runner returns, and it reports
a success just for a command that succeeds in time. -/
theorem run_command (hResponsive : site.Responsive) (command : Command) (station : Station) :
    ∃ enough outcome station',
      (outcome = .success ↔ site.Succeeds station.spawned.length station.fs command) ∧
      station'.fs = station.fs ∧ station'.count = station.count ∧
      station'.spawned = command :: station.spawned ∧
      ∀ fuel, enough ≤ fuel →
        Program.run site.oracle ((run site.control command fuel).interpret askProcess).run station =
          (.ok (.ok outcome), station') := by
  cases hBehave : site.behave station.spawned.length station.fs command with
  | error kind =>
      have hSpawn : site.oracle (.process (.spawn command)) station =
          (some (.error kind), { station with spawned := command :: station.spawned }) := by
        simp only [oracle, hBehave]
      refine ⟨0, .failed, { station with spawned := command :: station.spawned }, ?_, rfl, rfl, rfl,
        fun fuel _ => ?_⟩
      · simp [Succeeds, hBehave]
      · rw [run, spawn, Fallible.run_interpret_bind_ok askProcess (run_call_asked hSpawn)]
        rfl
  | ok child =>
      obtain ⟨deadline, hDeadline, hReached⟩ := hResponsive.deadline _ _ _ _ hBehave
      obtain ⟨first, hGoes, hStops⟩ := Replies.exists_first hReached
      have hSpawn : site.oracle (.process (.spawn command)) station =
          (some (.ok ()), station.running command child [.spawn command]) := by
        simp only [oracle, hBehave]
      have hNow : site.oracle (.process .now) (station.running command child [.spawn command]) =
          (some child.replies.start, station.running command child (Replies.head command 0)) := rfl
      refine ⟨first + 1, (child.replies.ended command first).1,
        station.running command child (child.replies.ended command first).2, ?_, rfl, rfl, rfl,
        fun fuel hFuel => ?_⟩
      · rw [Replies.ended_eq_success_iff hGoes hStops]
        constructor
        · intro hSucceeds
          exact ⟨child, deadline, hBehave, hDeadline, hSucceeds⟩
        · rintro ⟨child', deadline', hBehave', hDeadline', hSucceeds⟩
          rw [hBehave] at hBehave'
          cases hBehave'
          rw [hDeadline] at hDeadline'
          cases hDeadline'
          exact hSucceeds
      · have hLoop : Program.run site.oracle _ _ = _ :=
          run_awaitChild_asked (hResponsive.closes _ _ _ _ hBehave)
            (hResponsive.ends _ _ _ _ hBehave)
            station command deadline fuel (Replies.head command 0)
        rw [Replies.run_awaitChild_of_first hGoes hStops hFuel] at hLoop
        rw [run, spawn, Fallible.run_interpret_bind_ok askProcess (run_call_asked hSpawn)]
        refine (Fallible.run_interpret_bind_ok askProcess (run_call_asked hNow)).trans ?_
        rw [hDeadline]
        exact hLoop

/-- A control is answered as the abstract host answers it. -/
theorem run_deployed_sshd (hResponsive : site.Responsive) (call : SshdCall)
    (h : site.Mirrors station w) :
    ∃ enough station', site.Mirrors station' (site.host.oracle (.sshd call) w).2 ∧
      ∀ fuel, enough ≤ fuel →
      Program.run site.oracle (deployed site.control fuel (.sshd call)).run station =
        (.ok (site.host.oracle (.sshd call) w).1, station') := by
  obtain ⟨enough, outcome, station', hOutcome, hFs, hCount, hSpawned, hRun⟩ :=
    run_command hResponsive (site.control.command call) station
  refine ⟨enough, station', ⟨?_, ?_, ?_⟩, fun fuel hFuel => ?_⟩
  · rw [Host.oracle_sshd]
    exact hFs.trans h.fs
  · rw [Host.oracle_sshd]
    exact hCount.trans h.count
  · rw [Host.oracle_sshd, hSpawned, h.spawned]
    rfl
  · have hLength : station.spawned.length = w.events.length := by rw [h.spawned, List.length_map]
    have hVerdict : verdict (Scenario.failure call) outcome =
      site.host.sshd w.events.length w.fs call := by
      rw [hLength, h.fs] at hOutcome
      cases outcome with
      | success => rw [host_sshd_of_succeeds (hOutcome.mp rfl), verdict]
      | failed =>
          rw [host_sshd_of_not_succeeds (fun hSucceeds => by cases hOutcome.mpr hSucceeds), verdict]
      | timedOut =>
          rw [host_sshd_of_not_succeeds (fun hSucceeds => by cases hOutcome.mpr hSucceeds), verdict]
    have hControl : Program.run site.oracle
        ((SystemSshdControl.control site.control fuel call).interpret askProcess).run station =
          (.ok (.ok (verdict (Scenario.failure call) outcome)), station') := by
      rw [control_eq, Fallible.run_interpret_bind_ok askProcess (hRun fuel hFuel)]
      rfl
    rw [Host.oracle_sshd, ← hVerdict]
    exact Fallible.run_bind_ok hControl

/-- The filesystem calls go to the same files. -/
theorem run_deployed_fs (call : FsCall) (h : site.Mirrors station w) :
    ∃ station', site.Mirrors station' (site.host.oracle (.fs call) w).2 ∧ ∀ fuel,
      Program.run site.oracle (deployed site.control fuel (.fs call)).run station =
        (.ok (site.host.oracle (.fs call) w).1, station') := by
  have hAdvanced : ∀ fs, site.Mirrors (station.advance call.kind fs) (w.advance call.kind fs) := by
    intro fs
    refine ⟨rfl, ?_, h.spawned⟩
    show (fun k => if k = call.kind then station.count k + 1 else station.count k) = _
    rw [h.count]
    rfl
  have hRun : ∀ fuel, Program.run site.oracle (deployed site.control fuel (.fs call)).run station =
      (.ok (site.oracle (.fs call) station).1, (site.oracle (.fs call) station).2) := fun _ => rfl
  have hStep : site.oracle (.fs call) station =
      if site.host.failsAt call (w.count call.kind) then
        (call.failed, station.advance call.kind w.fs)
      else ((call.perform site.host (w.count call.kind) w.fs).1,
        station.advance call.kind (call.perform site.host (w.count call.kind) w.fs).2) := by
    rw [← h.fs, ← h.count, perform_host]
    rfl
  cases hFails : site.host.failsAt call (w.count call.kind) with
  | true =>
      rw [hFails, if_pos rfl] at hStep
      rw [Host.oracle_fs_of_fails hFails]
      exact ⟨_, hAdvanced _, fun fuel => by rw [hRun, hStep]⟩
  | false =>
      rw [hFails, if_neg Bool.false_ne_true] at hStep
      rw [Host.oracle_fs_of_performs hFails]
      exact ⟨_, hAdvanced _, fun fuel => by rw [hRun, hStep]⟩

/-- Every program of host calls runs on the site as on the abstract host, given
enough fuel. -/
theorem run_deployed {Result : Type} (hResponsive : site.Responsive) (p : HostProgram Result)
    (h : site.Mirrors station w) :
    ∃ enough station', site.Mirrors station' (p.run site.host.oracle w).2 ∧ ∀ fuel, enough ≤ fuel →
      Program.run site.oracle (p.interpret (deployed site.control fuel)).run station =
        (.ok (p.run site.host.oracle w).1, station') := by
  refine Fallible.interpret_simulates (deployed site.control) site.Mirrors ?_ p h
  intro call station w h
  cases call with
  | sshd call => exact run_deployed_sshd hResponsive call h
  | fs call =>
      obtain ⟨station', hMirrors, hRun⟩ := run_deployed_fs call h
      exact ⟨0, station', hMirrors, fun fuel _ => hRun fuel⟩

end Site

namespace HelperServer

/-- One connection after the other, each to its end. -/
def serveAll (server : HelperServer) (codec : Codec) : List Connection → HostProgram (List Handled)
  | [] => pure []
  | connection :: rest => do
      let handled ← server.handleConnection codec connection
      let others ← server.serveAll codec rest
      pure (handled :: others)

theorem run_serveAll (server : HelperServer) (codec : Codec) (host : Host) (w : World)
    (connections : List Connection) :
    (server.serveAll codec connections).run host.oracle w =
      ((Service.log (server.serveConnection codec host) w connections).map Prod.snd,
        Service.final (server.serveConnection codec host) w connections) := by
  induction connections generalizing w with
  | nil => rfl
  | cons connection rest ih =>
      rw [serveAll, Program.run_bind, Program.run_bind, ih]
      rfl

end HelperServer

/-- Connections served on a machine that spawns, polls and kills are answered
as by the abstract host and leave the same files; the commands spawned are
those of the controls. Where the output of every command reaches its end and
every child can be waited for, the helper returns. -/
theorem session_deployed {site : Site} (hResponsive : site.Responsive) (server : HelperServer)
    (codec : Codec)
    (connections : List Connection) {station : Station} {w : World} (h : site.Mirrors station w) :
    ∃ enough station', site.Mirrors station'
      (Service.final (server.serveConnection codec site.host) w connections) ∧
      ∀ fuel, enough ≤ fuel →
        Program.run site.oracle
          ((server.serveAll codec connections).interpret (deployed site.control fuel)).run station =
          (.ok ((Service.log (server.serveConnection codec site.host) w connections).map Prod.snd),
            station') := by
  have hRun := Site.run_deployed hResponsive (server.serveAll codec connections) h
  rw [HelperServer.run_serveAll] at hRun
  exact hRun

/-- A machine on which every command hangs and has to be killed. -/
noncomputable def Site.hanging : Site where
  umask := 0o022
  tempName := (Host.sandbox Host.noFailures fun _ _ _ => .ok ()).tempName
  fails := Host.noFailures
  control := SshdControlConfig.default
  behave := fun _ _ _ => .ok ⟨Replies.hung, true, true⟩

theorem Site.hanging_responsive : Site.hanging.Responsive := by
  refine ⟨?_, ?_, ?_⟩
  all_goals
    intro n fs command child hBehave
    cases hBehave
  · rfl
  · rfl
  refine ⟨SystemSshdControl.Scenario.defaultDeadline,
    SystemSshdControl.Scenario.printing_deadline [], 15, ?_⟩
  show _ ≤ Instant.reading (15 * nanosPerSec)
  rw [Instant.le_reading_iff]
  decide

/-- A machine that was just started. -/
def Station.start (fs : Fs) : Station := ⟨fs, fun _ => 0, [], ⟨Replies.hung, true, true⟩, []⟩

theorem session_deployed_hanging :
    ∃ enough station', ∀ fuel, enough ≤ fuel →
      Program.run Site.hanging.oracle ((HelperServer.unpinned.serveAll Codec.json
          [⟨none, frame (Json.encodeObject
            (Request.mk protocolVersion "token".toList .verifyState none).members), true,
              true⟩]).interpret
          (deployed Site.hanging.control fuel)).run (Station.start Fs.bare) =
        (.ok ((Service.log (HelperServer.unpinned.serveConnection Codec.json Site.hanging.host)
          (World.start Fs.bare)
          [⟨none, frame (Json.encodeObject
            (Request.mk protocolVersion "token".toList .verifyState none).members), true,
              true⟩]).map Prod.snd),
          station') := by
  have hStart : Site.hanging.Mirrors (Station.start Fs.bare) (World.start Fs.bare) :=
    ⟨rfl, rfl, rfl⟩
  obtain ⟨enough, station', -, hRun⟩ :=
    session_deployed Site.hanging_responsive HelperServer.unpinned Codec.json _ hStart
  exact ⟨enough, station', hRun⟩

end MayflyHelper
