import Pgov.Governor
import Pgov.Runs

namespace Pgov

open FixedWidth FdTable Runs

/-- One ready descriptor of a batch: whether reading the signal descriptor returns a whole record,
and what a tick meets if one is run for it. -/
structure ReadyEvent where
  fd : ℤ
  sigRead : Bool
  tick : TickIo

/-- What a wait returns: `EINTR` with the clock around it, another error, a timeout, or a batch. -/
inductive WaitOut
  | interrupted (start finish : Timespec)
  | failed
  | timeout (tick : TickIo)
  | ready (event : ReadyEvent) (events : List ReadyEvent)

structure SetupIo where
  create : Option ℕ+
  addSig : Option ℕ+
  addTrg : Option ℕ+

def requestShutdown (d : Daemon) : Daemon :=
  Daemon.log { d with ctx.shutdownReq := true } .shutdown

def epollInterrupted (d : Daemon) (start finish : Timespec) : Daemon :=
  if d.ctx.nextWake < 0 then d
  else
    let nextWake := i32 (d.ctx.nextWake - elapsedMs start finish)
    { d with ctx.nextWake := if nextWake < 1 then 1 else nextWake }

def handleSignalEvent (d : Daemon) (sigRead : Bool) : Daemon :=
  if sigRead then requestShutdown d else d

def handleTriggerEvent (p : Policy) (d : Daemon) (io : TickIo) : Daemon :=
  if d.ctx.onTrigger ∧ !d.ctx.shutdownReq then pgGovProcess p (d.log .onTrigger) io else d

def epollEvent (p : Policy) (d : Daemon) (ev : ReadyEvent) : Daemon :=
  if ev.fd = d.ctx.sigFd then handleSignalEvent d ev.sigRead
  else if ev.fd = d.ctx.trgFd then handleTriggerEvent p d ev.tick
  else d

def epollEvents (p : Policy) (d : Daemon) (events : List ReadyEvent) : Daemon :=
  events.foldl (epollEvent p) d

def handleTimeout (p : Policy) (d : Daemon) (io : TickIo) : Daemon :=
  if d.ctx.onTimeout then pgGovProcess p (d.log .onTimeout) io else d

/-- One turn of the loop of `pg_epoll_run`; a loop that has ended takes no more turns. -/
def reactorTurn (p : Policy) (d : Daemon) (out : WaitOut) : Daemon :=
  if d.ctx.shutdownReq then d
  else
    let d := d.log (.wait d.ctx.nextWake)
    match out with
    | .interrupted start finish => epollInterrupted d start finish
    | .failed => requestShutdown d
    | .timeout io => handleTimeout p d io
    | .ready event events => epollEvents p d (event :: events)

def epollSetup (d : Daemon) (io : SetupIo) : Daemon × ℤ :=
  match io.create with
  | some errno => ({ d with ctx.epollFd := -1 }, -(errno : ℕ))
  | none =>
    let epollFd := d.kern.fresh
    let d : Daemon := { d with kern := d.kern.openFd .epoll, ctx.epollFd := epollFd }
    match io.addSig with
    | some errno => ({ d with kern := d.kern.close epollFd, ctx.epollFd := -1 }, -(errno : ℕ))
    | none =>
      let d : Daemon := { d with kern := d.kern.watch epollFd d.ctx.sigFd }
      if d.ctx.trgFd ≥ 0 then
        let (kern, ret) := pgEpollAddTrg d.kern epollFd d.ctx.trgFd io.addTrg
        if ret < 0 then ({ d with kern := kern.close epollFd, ctx.epollFd := -1 }, ret)
        else ({ d with kern }, 0)
      else (d, 0)

def reactorRun (p : Policy) (d : Daemon) (io : SetupIo) (waits : List WaitOut) : Daemon :=
  run (reactorTurn p) (epollSetup d io).1 waits

/-- `none` while the loop is still running. -/
def pgEpollRun (p : Policy) (d : Daemon) (io : SetupIo) (waits : List WaitOut) :
    Option (Daemon × ℤ) :=
  let ret := (epollSetup d io).2
  if ret < 0 then some ((epollSetup d io).1, ret)
  else
    let d := reactorRun p d io waits
    if d.ctx.shutdownReq then
      some ({ d with kern := d.kern.close d.ctx.epollFd, ctx.epollFd := -1 }, 0)
    else none

end Pgov
