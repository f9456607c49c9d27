import Pgov.ReactorTimeouts

namespace Pgov

open FixedWidth Runs

/-- What the loop changes by itself: the next wait and the request to stop, with what it records of
its own. -/
def LoopFrame (d d' : Daemon) : Prop :=
  ∃ ev wake req, (∀ e ∈ ev, e.inTick = false) ∧
    d' = { d with trace := d.trace ++ ev, ctx.nextWake := wake, ctx.shutdownReq := req }

def WaitOut.Ticks (A : TickIo → Prop) : WaitOut → Prop
  | .interrupted _ _ => True
  | .failed => True
  | .timeout io => A io
  | .ready event events => ∀ ev ∈ event :: events, A ev.tick

theorem WaitOut.ticks_any (out : WaitOut) : out.Ticks fun _ => True := by
  cases out <;> simp [WaitOut.Ticks]

structure TickInvariant (p : Policy) (A : TickIo → Prop) (Inv : Daemon → Prop) : Prop where
  loop : ∀ d d', LoopFrame d d' → Inv d → Inv d'
  tick : ∀ d io, A io → Inv d → Inv (pgGovProcess p d io)

theorem LoopFrame.log (d : Daemon) {e : GovEvent} (he : e.inTick = false) :
    LoopFrame d (d.log e) := ⟨[e], d.ctx.nextWake, d.ctx.shutdownReq, by simpa, rfl⟩

theorem LoopFrame.requestShutdown (d : Daemon) : LoopFrame d (requestShutdown d) :=
  ⟨[.shutdown], d.ctx.nextWake, true, by simp [GovEvent.inTick], rfl⟩

theorem LoopFrame.interrupted (d : Daemon) (start finish : Timespec) :
    LoopFrame d (epollInterrupted d start finish) := by
  rw [epollInterrupted]
  split
  · exact ⟨[], d.ctx.nextWake, d.ctx.shutdownReq, by simp, by rw [List.append_nil]⟩
  · exact ⟨[], _, d.ctx.shutdownReq, by simp, by rw [List.append_nil]⟩

section Rule

variable {p : Policy} {A : TickIo → Prop} {Inv : Daemon → Prop} {d : Daemon}

theorem TickInvariant.log (h : TickInvariant p A Inv) (hd : Inv d) {e : GovEvent}
    (he : e.inTick = false) : Inv (d.log e) := h.loop d _ (.log d he) hd

theorem TickInvariant.event (h : TickInvariant p A Inv) (hd : Inv d) {ev : ReadyEvent}
    (hio : A ev.tick) : Inv (epollEvent p d ev) := by
  rw [epollEvent]
  split
  · rw [handleSignalEvent]
    split
    · exact h.loop d _ (.requestShutdown d) hd
    · exact hd
  split
  · rw [handleTriggerEvent]
    split
    · exact h.tick _ _ hio (h.log hd rfl)
    · exact hd
  · exact hd

theorem TickInvariant.events (h : TickInvariant p A Inv) (hd : Inv d) {events : List ReadyEvent}
    (hio : ∀ ev ∈ events, A ev.tick) : Inv (epollEvents p d events) := by
  apply run_invariant (P := fun _ ev => A ev.tick)
  · exact fun _ _ hd hev => h.event hd hev
  · exact hd
  · exact along_of_mem hio d

theorem TickInvariant.turn (h : TickInvariant p A Inv) (hd : Inv d) {out : WaitOut}
    (hio : out.Ticks A) : Inv (reactorTurn p d out) := by
  rw [reactorTurn]
  split
  · exact hd
  have hwait : Inv (d.log (.wait d.ctx.nextWake)) := h.log hd rfl
  cases out with
  | interrupted start finish => exact h.loop _ _ (.interrupted _ start finish) hwait
  | failed => exact h.loop _ _ (.requestShutdown _) hwait
  | timeout io =>
    simp only [handleTimeout]
    split
    · exact h.tick _ _ hio (h.log hwait rfl)
    · exact hwait
  | ready event events =>
    exact h.events hwait hio

theorem TickInvariant.turns (h : TickInvariant p A Inv) (hd : Inv d) {waits : List WaitOut}
    (hio : ∀ out ∈ waits, out.Ticks A) : Inv (run (reactorTurn p) d waits) := by
  apply run_invariant (P := fun _ out => WaitOut.Ticks A out)
  · exact fun _ _ hd hout => h.turn hd hout
  · exact hd
  · exact along_of_mem hio d

theorem TickInvariant.reactor (h : TickInvariant p A Inv) {io : SetupIo}
    (hsetup : ∀ kern fd, Inv { d with kern, ctx.epollFd := fd }) {waits : List WaitOut}
    (hio : ∀ out ∈ waits, out.Ticks A) : Inv (reactorRun p d io waits) := by
  apply h.turns _ hio
  obtain ⟨kern, fd, heq⟩ := epollSetup_eq d io
  rw [heq]
  exact hsetup kern fd

end Rule

/-- What looking at the display and reading the pressure leave alone. -/
structure Ungoverned (d d' : Daemon) : Prop where
  channels : d'.ctx.channels = d.ctx.channels
  thermalState : d'.ctx.thermalState = d.ctx.thermalState
  psiVal : d'.ctx.loadState.psiVal = d.ctx.loadState.psiVal
  rate : d'.ctx.loadState.rate = d.ctx.loadState.rate
  psiRef : d'.ctx.loadState.psiRef = d.ctx.loadState.psiRef
  prevInteg : d'.ctx.loadState.prevInteg = d.ctx.loadState.prevInteg
  cpuTempSensor : d'.ctx.cpuTempSensor = d.ctx.cpuTempSensor
  batTempSensor : d'.ctx.batTempSensor = d.ctx.batTempSensor
  batCapSensor : d'.ctx.batCapSensor = d.ctx.batCapSensor
  batLvl : d'.ctx.batLvl = d.ctx.batLvl
  batTemp : d'.ctx.batTemp = d.ctx.batTemp
  cachedThScl : d'.ctx.cachedThScl = d.ctx.cachedThScl
  lastBat : d'.ctx.lastBat = d.ctx.lastBat
  lastTherm : d'.ctx.lastTherm = d.ctx.lastTherm
  tempFails : d'.ctx.tempFails = d.ctx.tempFails
  remapDue : d'.ctx.remapDue = d.ctx.remapDue
  epollFd : d'.ctx.epollFd = d.ctx.epollFd
  dormant : d'.ctx.dormant = d.ctx.dormant
  trace : ∃ ev, d'.trace = d.trace ++ ev ∧ ∀ e ∈ ev, e.works = false

section Steps

variable {p : Policy} {d d' d'' : Daemon} {io : TickIo}

theorem Ungoverned.of_eq (hchannels : d'.ctx.channels = d.ctx.channels)
    (hthermal : d'.ctx.thermalState = d.ctx.thermalState) (hload : d'.ctx.loadState = d.ctx.loadState)
    (hcpu : d'.ctx.cpuTempSensor = d.ctx.cpuTempSensor)
    (htemp : d'.ctx.batTempSensor = d.ctx.batTempSensor)
    (hcap : d'.ctx.batCapSensor = d.ctx.batCapSensor) (hlvl : d'.ctx.batLvl = d.ctx.batLvl)
    (hbat : d'.ctx.batTemp = d.ctx.batTemp) (hscl : d'.ctx.cachedThScl = d.ctx.cachedThScl)
    (hlastBat : d'.ctx.lastBat = d.ctx.lastBat) (hlastTherm : d'.ctx.lastTherm = d.ctx.lastTherm)
    (hfails : d'.ctx.tempFails = d.ctx.tempFails) (hremap : d'.ctx.remapDue = d.ctx.remapDue)
    (hepoll : d'.ctx.epollFd = d.ctx.epollFd) (hdormant : d'.ctx.dormant = d.ctx.dormant)
    (htrace : ∃ ev, d'.trace = d.trace ++ ev ∧ ∀ e ∈ ev, e.works = false) : Ungoverned d d' :=
  ⟨hchannels, hthermal, congrArg _ hload, congrArg _ hload, congrArg _ hload, congrArg _ hload, hcpu,
    htemp, hcap, hlvl, hbat, hscl, hlastBat, hlastTherm, hfails, hremap, hepoll, hdormant, htrace⟩

theorem trace_same (d : Daemon) : ∃ ev, d.trace = d.trace ++ ev ∧ ∀ e ∈ ev, e.works = false :=
  ⟨[], (List.append_nil _).symm, by simp⟩

theorem Ungoverned.refl (d : Daemon) : Ungoverned d d :=
  .of_eq rfl rfl rfl rfl rfl rfl rfl rfl rfl rfl rfl rfl rfl rfl rfl (trace_same d)

theorem Ungoverned.trans (h : Ungoverned d d') (h' : Ungoverned d' d'') : Ungoverned d d'' := by
  refine ⟨h'.channels.trans h.channels, h'.thermalState.trans h.thermalState,
    h'.psiVal.trans h.psiVal, h'.rate.trans h.rate, h'.psiRef.trans h.psiRef,
    h'.prevInteg.trans h.prevInteg, h'.cpuTempSensor.trans h.cpuTempSensor,
    h'.batTempSensor.trans h.batTempSensor, h'.batCapSensor.trans h.batCapSensor,
    h'.batLvl.trans h.batLvl, h'.batTemp.trans h.batTemp, h'.cachedThScl.trans h.cachedThScl,
    h'.lastBat.trans h.lastBat, h'.lastTherm.trans h.lastTherm, h'.tempFails.trans h.tempFails,
    h'.remapDue.trans h.remapDue, h'.epollFd.trans h.epollFd, h'.dormant.trans h.dormant, ?_⟩
  obtain ⟨ev, hev, hquiet⟩ := h.trace
  obtain ⟨ev', hev', hquiet'⟩ := h'.trace
  refine ⟨ev ++ ev', by rw [hev', hev, List.append_assoc], ?_⟩
  intro e he
  rcases List.mem_append.mp he with he | he
  · exact hquiet e he
  · exact hquiet' e he

theorem Ungoverned.log (d : Daemon) {e : GovEvent} (he : e.works = false) : Ungoverned d (d.log e) :=
  .of_eq rfl rfl rfl rfl rfl rfl rfl rfl rfl rfl rfl rfl rfl rfl rfl ⟨[e], rfl, by simpa⟩

theorem Ungoverned.wake (d : Daemon) (wake : ℤ) : Ungoverned d { d with ctx.nextWake := wake } :=
  .of_eq rfl rfl rfl rfl rfl rfl rfl rfl rfl rfl rfl rfl rfl rfl rfl (trace_same d)

theorem LoopFrame.ungoverned (h : LoopFrame d d') : Ungoverned d d' := by
  obtain ⟨ev, wake, req, hloop, rfl⟩ := h
  refine .of_eq rfl rfl rfl rfl rfl rfl rfl rfl rfl rfl rfl rfl rfl rfl rfl ⟨ev, rfl, fun e he => ?_⟩
  have hkind := hloop e he
  cases e <;> simp [GovEvent.inTick, GovEvent.works] at hkind ⊢

theorem dispTransit_ungoverned (ctx : PgContext) (on : Bool) (now : Timespec) (kern : Kernel)
    (trace : List GovEvent) : Ungoverned ⟨ctx, kern, trace⟩ ⟨dispTransit ctx on now, kern, trace⟩ := by
  rw [dispTransit]
  split
  · exact ⟨rfl, rfl, rfl, rfl, rfl, rfl, rfl, rfl, rfl, rfl, rfl, rfl, rfl, rfl, rfl, rfl, rfl, rfl,
      trace_same _⟩
  split
  · exact .of_eq rfl rfl rfl rfl rfl rfl rfl rfl rfl rfl rfl rfl rfl rfl rfl (trace_same _)
  split
  · exact .of_eq rfl rfl rfl rfl rfl rfl rfl rfl rfl rfl rfl rfl rfl rfl rfl (trace_same _)
  · exact .refl _

theorem dispShown_ungoverned (d : Daemon) (io : TickIo) : Ungoverned d (dispShown d io) := by
  have hseen : Ungoverned d { d with ctx.lastDisp := io.now } :=
    .of_eq rfl rfl rfl rfl rfl rfl rfl rfl rfl rfl rfl rfl rfl rfl rfl (trace_same d)
  exact (hseen.trans (dispTransit_ungoverned _ _ io.now d.kern d.trace)).trans (.log _ rfl)

theorem updateDisp_ungoverned (d : Daemon) (io : TickIo) : Ungoverned d (updateDisp d io).1 := by
  rcases updateDisp_cases d io with ⟨-, heq⟩ | ⟨-, heq⟩ | ⟨-, heq⟩ <;> rw [heq]
  · exact .refl d
  · obtain ⟨kern, lastSweep, hidle⟩ := dispIdle_eq (dispShown d io) io
    apply (dispShown_ungoverned d io).trans
    rw [hidle]
    exact .of_eq rfl rfl rfl rfl rfl rfl rfl rfl rfl rfl rfl rfl rfl rfl rfl (trace_same _)
  · exact dispShown_ungoverned d io

theorem readPsi_ungoverned (d : Daemon) (io : TickIo) : Ungoverned d (readPsi d io).1 := by
  cases hres : pgPsiRead d.ctx.psi io.psi io.now with
  | mk mon res =>
    cases res with
    | ok trend =>
      rw [readPsi_ok hres]
      exact .of_eq rfl rfl rfl rfl rfl rfl rfl rfl rfl rfl rfl rfl rfl rfl rfl
        ⟨_, rfl, by simp [GovEvent.works]⟩
    | error err =>
      obtain ⟨kern, fd, mon', -, heq⟩ := readPsi_error hres
      rw [heq]
      exact .of_eq rfl rfl rfl rfl rfl rfl rfl rfl rfl rfl rfl rfl rfl rfl rfl
        ⟨_, rfl, by simp [GovEvent.works]⟩

/-- A tick either leaves what it governs alone, or is the governing of what it has read. -/
theorem tick_governs (p : Policy) (d : Daemon) (io : TickIo) :
    Ungoverned d (pgGovProcess p d io) ∨
      ∃ d₂ psi wake, Ungoverned d d₂ ∧ d.ctx.dormant = false ∧
        pgGovProcess p d io = { govern p d₂ io psi with ctx.nextWake := wake } := by
  have hshown := (Ungoverned.log d (e := .tick io.now) rfl).trans
    (updateDisp_ungoverned (d.log (.tick io.now)) io)
  cases govProcess_cases p d io with
  | suspended d₁ hdisp wake heq =>
    left
    rw [hdisp] at hshown
    rw [heq]
    exact hshown.trans (.wake d₁ wake)
  | dormant d₁ hdisp _ heq =>
    left
    rw [hdisp] at hshown
    rw [heq]
    exact hshown.trans (.wake d₁ _)
  | failed d₁ d₂ hdisp _ hread heq =>
    left
    have hred := readPsi_ungoverned d₁ io
    rw [hdisp] at hshown
    rw [hread] at hred
    rw [heq]
    exact (hshown.trans hred).trans (.wake d₂ _)
  | governed d₁ d₂ psi hdisp hdormant hread heq =>
    right
    have hred := readPsi_ungoverned d₁ io
    rw [hdisp] at hshown
    rw [hread] at hred
    exact ⟨d₂, psi, _, hshown.trans hred, hdormant, heq⟩

end Steps

end Pgov
