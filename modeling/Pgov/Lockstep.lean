import Pgov.KernelValues
import Pgov.PsiLines
import Pgov.StallGaps

namespace Pgov

open FixedWidth FdTable

def FromKernel (out : ReadOut) : Prop :=
  readBuf out 512 = none ∨
    ∃ (l : PsiLine) (more : List UInt8), l.someLine.length ≤ 512 ∧ out = .ok (l.someLine ++ more)

/-- Two monitors that are equal or, where what they read is `formatted`, both about to start afresh
and different in what they keep of earlier reads only. -/
def SameNext (formatted : Prop) (mon mon' : PsiMonitor) : Prop :=
  mon' = mon ∨
    formatted ∧ mon.firstRun = true ∧
      ∃ lastReadTs lastTot filter, mon' = { mon with lastReadTs, lastTot, filter }

def Daemon.swap (d : Daemon) (psi : PsiMonitor) (channels : Channels) (trace : List GovEvent) :
    Daemon :=
  ⟨{ d.ctx with psi, channels }, d.kern, trace⟩

/-- Two daemons that differ in their memory of the pressure and in the tunables outside `keep`. -/
structure Alike (formatted : Prop) (keep : Sink → Prop) (d d' : Daemon) : Prop where
  swapped : d' = d.swap d'.ctx.psi d'.ctx.channels d'.trace
  psi : SameNext formatted d.ctx.psi d'.ctx.psi
  kept : ∀ i, keep i → d'.ctx.channels.get i = d.ctx.channels.get i

def TickIo.write (io : TickIo) : Sink → UpdateIo
  | .schedLat => io.latIo
  | .schedGran => io.granIo
  | .schedWake => io.wakeIo
  | .schedMig => io.migIo
  | .schedWalt => io.waltIo
  | .schedUcl => io.uclIo

def TickIo.withWrites (io : TickIo) (write : Sink → UpdateIo) : TickIo :=
  { io with
    latIo := write .schedLat
    granIo := write .schedGran
    wakeIo := write .schedWake
    migIo := write .schedMig
    waltIo := write .schedWalt
    uclIo := write .schedUcl }

structure SameTick (formatted : Prop) (keep : Sink → Prop) (io io' : TickIo) : Prop where
  rest : io' = io.withWrites io'.write
  kept : ∀ i, keep i → io'.write i = io.write i
  text : formatted → FromKernel io.psi

section Reads

variable {formatted : Prop} {mon mon' : PsiMonitor} {out : ReadOut} {now : Timespec}

theorem psiRead_error_neg {next : PsiMonitor} {err : ℤ}
    (h : pgPsiRead mon out now = (next, .error err)) : err < 0 := by
  rw [pgPsiRead] at h
  split at h
  · rw [← Except.error.inj (Prod.mk.inj h).2]
    decide
  split at h
  · rw [← Except.error.inj (Prod.mk.inj h).2]
    decide
  split at h
  · rw [← Except.error.inj (Prod.mk.inj h).2]
    decide
  · exact absurd (Prod.mk.inj h).2 (by simp)

theorem psiRead_kernel (l : PsiLine) (more : List UInt8) (hlen : l.someLine.length ≤ 512)
    (hfd : 0 ≤ mon.fd) (now : Timespec) :
    pgPsiRead mon (.ok (l.someLine ++ more)) now =
      ((l.readBy mon now).1, .ok (l.readBy mon now).2.1) := by
  have hread := psiRead_line l hfd emptyTrend now hlen more
  rw [psiReadAt_eq] at hread
  cases hres : pgPsiRead mon (.ok (l.someLine ++ more)) now with
  | mk next res =>
    rw [hres] at hread
    cases res with
    | ok trend =>
      rw [← Option.some.inj hread]
    | error err =>
      have hneg := psiRead_error_neg hres
      have hcode : err = 0 := congrArg (fun r => r.2.2) (Option.some.inj hread)
      omega

theorem readBy_fresh (l : PsiLine) (hfirst : mon.firstRun = true) (now lastReadTs : Timespec)
    (lastTot : ℕ) (filter : KalmanState) :
    l.readBy { mon with lastReadTs, lastTot, filter } now = l.readBy mon now := by
  simp [PsiLine.readBy, calcKalman, hfirst]

theorem SameNext.read (h : SameNext formatted mon mon') (hout : formatted → FromKernel out)
    (now : Timespec) :
    (∃ next trend, pgPsiRead mon out now = (next, .ok trend) ∧
        pgPsiRead mon' out now = (next, .ok trend)) ∨
      ∃ err err', pgPsiRead mon out now = (mon, .error err) ∧
        pgPsiRead mon' out now = (mon', .error err') := by
  rcases h with rfl | ⟨hf, hfirst, lastReadTs, lastTot, filter, rfl⟩
  · cases hres : pgPsiRead mon' out now with
    | mk next res =>
      cases res with
      | ok trend => exact .inl ⟨next, trend, rfl, rfl⟩
      | error err =>
        obtain rfl := psiRead_error_mon hres
        exact .inr ⟨err, err, rfl, rfl⟩
  by_cases hfd : mon.fd < 0
  · refine .inr ⟨-ebadf, -ebadf, ?_, ?_⟩
    · rw [pgPsiRead, if_pos hfd]
    · rw [pgPsiRead, if_pos hfd]
  rcases hout hf with hnone | ⟨l, more, hlen, rfl⟩
  · refine .inr ⟨-eio, -eio, ?_, ?_⟩
    · rw [pgPsiRead, if_neg hfd, hnone]
    · rw [pgPsiRead, if_neg hfd, hnone]
  · refine .inl ⟨(l.readBy mon now).1, (l.readBy mon now).2.1, ?_, ?_⟩
    · exact psiRead_kernel l more hlen (not_lt.mp hfd) now
    · have hfd' : 0 ≤ ({ mon with lastReadTs, lastTot, filter } : PsiMonitor).fd := not_lt.mp hfd
      have hread := psiRead_kernel l more hlen hfd' now
      rwa [readBy_fresh l hfirst] at hread

end Reads

section Steps

variable {formatted : Prop} {keep : Sink → Prop} {d d' : Daemon} {io io' : TickIo}

theorem related_ite {α β : Type*} {R : α → β → Prop} {c c' : Prop} [Decidable c] [Decidable c']
    {a b : α} {a' b' : β} (hc : c' ↔ c) (hpos : R a a') (hneg : R b b') :
    R (if c then a else b) (if c' then a' else b') := by
  by_cases h : c
  · rwa [if_pos h, if_pos (hc.mpr h)]
  · rwa [if_neg h, if_neg (mt hc.mp h)]

theorem Alike.exists_swap (h : Alike formatted keep d d') :
    ∃ psi channels trace, d' = d.swap psi channels trace ∧ SameNext formatted d.ctx.psi psi ∧
      ∀ i, keep i → channels.get i = d.ctx.channels.get i :=
  ⟨_, _, _, h.swapped, h.psi, h.kept⟩

theorem SameTick.exists_writes (h : SameTick formatted keep io io') :
    ∃ write, io' = io.withWrites write ∧ ∀ i, keep i → write i = io.write i :=
  ⟨_, h.rest, h.kept⟩

theorem Alike.log (h : Alike formatted keep d d') (e e' : GovEvent) :
    Alike formatted keep (d.log e) (d'.log e') := by
  obtain ⟨psi, channels, trace, rfl, hpsi, hkept⟩ := h.exists_swap
  exact ⟨rfl, hpsi, hkept⟩

theorem Alike.setWake (h : Alike formatted keep d d') (wake : ℤ) :
    Alike formatted keep { d with ctx.nextWake := wake } { d' with ctx.nextWake := wake } := by
  obtain ⟨psi, channels, trace, rfl, hpsi, hkept⟩ := h.exists_swap
  exact ⟨rfl, hpsi, hkept⟩

theorem Alike.dispShown (h : Alike formatted keep d d') (hio : SameTick formatted keep io io') :
    Alike formatted keep (dispShown d io) (dispShown d' io') := by
  obtain ⟨psi, channels, trace, rfl, hpsi, hkept⟩ := h.exists_swap
  obtain ⟨write, rfl, -⟩ := hio.exists_writes
  apply Alike.log
  have hfresh : SameNext formatted { d.ctx.psi with filter := pgKalmanReset, firstRun := true }
      { psi with filter := pgKalmanReset, firstRun := true } := by
    rcases hpsi with rfl | ⟨hf, -, lastReadTs, lastTot, filter, rfl⟩
    · exact .inl rfl
    · exact .inr ⟨hf, rfl, lastReadTs, lastTot, pgKalmanReset, rfl⟩
  let R (ctx ctx' : PgContext) :=
    Alike formatted keep { d with ctx } { d.swap psi channels trace with ctx := ctx' }
  change R (dispTransit _ _ _) (dispTransit _ _ _)
  apply related_ite (R := R) Iff.rfl
  · exact ⟨rfl, hfresh, hkept⟩
  apply related_ite (R := R) Iff.rfl
  · exact ⟨rfl, hpsi, hkept⟩
  apply related_ite (R := R) Iff.rfl
  · exact ⟨rfl, hpsi, hkept⟩
  · exact ⟨rfl, hpsi, hkept⟩

theorem Alike.dispIdle (h : Alike formatted keep d d') (hio : SameTick formatted keep io io') :
    Alike formatted keep (dispIdle d io) (dispIdle d' io') := by
  obtain ⟨psi, channels, trace, rfl, hpsi, hkept⟩ := h.exists_swap
  obtain ⟨write, rfl, -⟩ := hio.exists_writes
  apply related_ite (c := pgDtSec d.ctx.lastSweep io.now > intToQ16 pgSweepIvlSec) Iff.rfl
  · exact ⟨rfl, hpsi, hkept⟩
  · exact ⟨rfl, hpsi, hkept⟩

theorem Alike.updateDisp (h : Alike formatted keep d d') (hio : SameTick formatted keep io io') :
    (updateDisp d' io').2 = (updateDisp d io).2 ∧
      Alike formatted keep (updateDisp d io).1 (updateDisp d' io').1 := by
  have hshown := h.dispShown hio
  have hidle := hshown.dispIdle hio
  obtain ⟨psi, channels, trace, heq, -, -⟩ := hshown.exists_swap
  have hstate : (Pgov.dispShown d' io').ctx.dispState = (Pgov.dispShown d io).ctx.dispState := by
    rw [heq]
    rfl
  obtain ⟨psi, channels, trace, rfl, hpsi, hkept⟩ := h.exists_swap
  obtain ⟨write, rfl, -⟩ := hio.exists_writes
  let R (r r' : Daemon × Bool) := r'.2 = r.2 ∧ Alike formatted keep r.1 r'.1
  change R (Pgov.updateDisp d io) (Pgov.updateDisp _ _)
  apply related_ite (R := R) Iff.rfl
  · exact ⟨rfl, rfl, hpsi, hkept⟩
  apply related_ite (R := R)
  · exact Iff.of_eq (congrArg (· = DispState.suspend) hstate)
  · exact ⟨rfl, hidle⟩
  · exact ⟨rfl, hshown⟩

theorem Alike.dropTrigger (h : Alike formatted keep d d') (del : Option ℕ+) :
    Alike formatted keep (dropTrigger d del) (dropTrigger d' del) := by
  obtain ⟨psi, channels, trace, rfl, hpsi, hkept⟩ := h.exists_swap
  apply related_ite (c := d.ctx.trgFd ≥ 0) Iff.rfl
  · exact ⟨rfl, hpsi, hkept⟩
  · exact ⟨rfl, hpsi, hkept⟩

theorem Alike.recoverPsi (h : Alike formatted keep d d') (reopen : Option ℕ+) :
    Alike formatted keep (recoverPsi d reopen) (recoverPsi d' reopen) := by
  obtain ⟨psi, channels, trace, rfl, hpsi, hkept⟩ := h.exists_swap
  rcases hpsi with rfl | ⟨hf, hfirst, lastReadTs, lastTot, filter, rfl⟩
  · cases reopen with
    | some errno => exact ⟨rfl, .inl rfl, hkept⟩
    | none => exact ⟨rfl, .inl rfl, hkept⟩
  · cases reopen with
    | some errno => exact ⟨rfl, .inr ⟨hf, hfirst, lastReadTs, lastTot, filter, rfl⟩, hkept⟩
    | none => exact ⟨rfl, .inr ⟨hf, rfl, lastReadTs, lastTot, pgKalmanReset, rfl⟩, hkept⟩

theorem Alike.armTrigger (h : Alike formatted keep d d') (arm : ArmIo) :
    Alike formatted keep (armTrigger d arm) (armTrigger d' arm) := by
  obtain ⟨psi, channels, trace, rfl, hpsi, hkept⟩ := h.exists_swap
  apply related_ite (c := (pgPsiOpenTrg d.kern arm).2 < 0) Iff.rfl
  · exact ⟨rfl, hpsi, hkept⟩
  apply related_ite (c := (pgEpollAddTrg (pgPsiOpenTrg d.kern arm).1 d.ctx.epollFd
    (pgPsiOpenTrg d.kern arm).2 arm.add).2 < 0) Iff.rfl
  · exact ⟨rfl, hpsi, hkept⟩
  · exact ⟨rfl, hpsi, hkept⟩

theorem Alike.readPsi (h : Alike formatted keep d d') (hio : SameTick formatted keep io io') :
    (readPsi d' io').2 = (readPsi d io).2 ∧
      Alike formatted keep (readPsi d io).1 (readPsi d' io').1 := by
  obtain ⟨psi, channels, trace, rfl, hpsi, hkept⟩ := h.exists_swap
  have htext := hio.text
  obtain ⟨write, rfl, -⟩ := hio.exists_writes
  rcases hpsi.read htext io.now with ⟨next, trend, hread, hread'⟩ | ⟨err, err', hread, hread'⟩
  · have hok' : Pgov.readPsi (d.swap psi channels trace) (io.withWrites write) = _ :=
      readPsi_ok hread'
    rw [readPsi_ok hread, hok']
    exact ⟨rfl, rfl, .inl rfl, hkept⟩
  · unfold Pgov.readPsi
    have hread'' : pgPsiRead (d.swap psi channels trace).ctx.psi (io.withWrites write).psi
      (io.withWrites write).now = (psi, .error err') := hread'
    rw [hread, hread'']
    refine ⟨rfl, ?_⟩
    apply Alike.armTrigger
    apply Alike.recoverPsi
    apply Alike.dropTrigger
    exact ⟨rfl, hpsi, hkept⟩

theorem Alike.pollBattery (h : Alike formatted keep d d') (hio : SameTick formatted keep io io') :
    Alike formatted keep (pollBatteryMetrics d io) (pollBatteryMetrics d' io') := by
  obtain ⟨psi, channels, trace, rfl, hpsi, hkept⟩ := h.exists_swap
  obtain ⟨write, rfl, -⟩ := hio.exists_writes
  apply related_ite (c := pgDtSec d.ctx.lastBat io.now < intToQ16 pgBatChkSec) Iff.rfl
  · exact ⟨rfl, hpsi, hkept⟩
  apply related_ite (c := d.ctx.trgFd < 0) Iff.rfl
  · apply Alike.armTrigger
    exact ⟨rfl, hpsi, hkept⟩
  · exact ⟨rfl, hpsi, hkept⟩

theorem Alike.pollThermal (h : Alike formatted keep d d') (p : Policy)
    (hio : SameTick formatted keep io io') :
    Alike formatted keep (pollThermalMetrics p d io) (pollThermalMetrics p d' io') := by
  obtain ⟨psi, channels, trace, rfl, hpsi, hkept⟩ := h.exists_swap
  obtain ⟨write, rfl, -⟩ := hio.exists_writes
  apply related_ite (c := pgDtSec d.ctx.lastTherm io.now < intToQ16 pgThermChkSec) Iff.rfl
  · exact ⟨rfl, hpsi, hkept⟩
  have hpolled : pollCpuTemp (d.swap psi channels trace).ctx (io.withWrites write).cpuTemp =
    pollCpuTemp d.ctx io.cpuTemp := rfl
  rw [hpolled]
  generalize pollCpuTemp d.ctx io.cpuTemp = polled
  obtain ⟨cpuTemp, tempFails⟩ := polled
  cases cpuTemp with
  | none => exact ⟨rfl, hpsi, hkept⟩
  | some cpuTemp => exact ⟨rfl, hpsi, hkept⟩

theorem Alike.calcDemand (h : Alike formatted keep d d') (p : Policy)
    (hio : SameTick formatted keep io io') (trend : PsiTrend) :
    (calcDemand p d' io' trend).2 = (calcDemand p d io trend).2 ∧
      Alike formatted keep (calcDemand p d io trend).1 (calcDemand p d' io' trend).1 := by
  have hpolled := (h.pollBattery hio).pollThermal p hio
  obtain ⟨write, rfl, -⟩ := hio.exists_writes
  unfold Pgov.calcDemand
  generalize pollThermalMetrics p (pollBatteryMetrics d io) io = e at hpolled ⊢
  generalize pollThermalMetrics p (pollBatteryMetrics d' _) _ = e' at hpolled ⊢
  obtain ⟨psi, channels, trace, rfl, hpsi, hkept⟩ := hpolled.exists_swap
  exact ⟨rfl, rfl, hpsi, hkept⟩

theorem Alike.govGate (h : Alike formatted keep d d') (p : Policy)
    (hio : SameTick formatted keep io io') (trend : PsiTrend) (pEff : ℤ) :
    (govGate p d' io' trend pEff).2 = (govGate p d io trend pEff).2 ∧
      Alike formatted keep (govGate p d io trend pEff).1 (govGate p d' io' trend pEff).1 := by
  obtain ⟨psi, channels, trace, rfl, hpsi, hkept⟩ := h.exists_swap
  obtain ⟨write, rfl, -⟩ := hio.exists_writes
  let R (r r' : Daemon × Bool) := r'.2 = r.2 ∧ Alike formatted keep r.1 r'.1
  change R (Pgov.govGate _ _ _ _ _) (Pgov.govGate _ _ _ _ _)
  unfold Pgov.govGate
  apply related_ite (R := R) Iff.rfl
  · exact ⟨rfl, rfl, hpsi, hkept⟩
  · exact ⟨rfl, rfl, hpsi, hkept⟩

theorem mappingUpdates_kept (p : Policy) (d : Daemon) (io : TickIo) (trend : PsiTrend) (dem : Demand)
    {channels channels' : Channels} {write : Sink → UpdateIo} {i : Sink}
    (hact : (channels.get i).cache.active = true) (hact' : (channels'.get i).cache.active = true)
    (hwrite : write i = io.write i) :
    (mappingUpdates p.cpu p.lim channels' (mappingCall d (io.withWrites write) trend dem)).get i =
      (mappingUpdates p.cpu p.lim channels (mappingCall d io trend dem)).get i := by
  cases i <;>
    simp only [Channels.get] at hact hact' <;>
    simp only [TickIo.write] at hwrite <;>
    simp [MappingUpdates.get, mappingUpdates, mapValues, mappingCall, TickIo.withWrites, hact, hact',
      hwrite]

theorem applyMapping_kept (p : Policy) (d : Daemon) (io : TickIo) (trend : PsiTrend) (dem : Demand)
    {channels channels' : Channels} {write : Sink → UpdateIo} {i : Sink}
    (hkept : channels'.get i = channels.get i) (hwrite : write i = io.write i) :
    (applyMapping p.cpu p.lim channels' (mappingCall d (io.withWrites write) trend dem)).get i =
      (applyMapping p.cpu p.lim channels (mappingCall d io trend dem)).get i := by
  rw [applyMapping_get, applyMapping_get, hkept]
  cases hact : (channels.get i).cache.active with
  | false => rw [update_unmapped hact, update_unmapped hact]
  | true =>
    have hact' : (channels'.get i).cache.active = true := by rwa [hkept]
    rw [mappingUpdates_kept p d io trend dem hact hact' hwrite]

theorem Alike.mapChannels (h : Alike formatted keep d d') (p : Policy)
    (hio : SameTick formatted keep io io') (trend : PsiTrend) (dem : Demand) :
    Alike formatted keep (mapChannels p d io trend dem) (mapChannels p d' io' trend dem) := by
  obtain ⟨psi, channels, trace, rfl, hpsi, hkept⟩ := h.exists_swap
  obtain ⟨write, rfl, hwrite⟩ := hio.exists_writes
  exact ⟨rfl, hpsi, fun i hi => applyMapping_kept p d io trend dem (hkept i hi) (hwrite i hi)⟩

theorem Alike.govern (h : Alike formatted keep d d') (p : Policy)
    (hio : SameTick formatted keep io io') (trend : PsiTrend) :
    Alike formatted keep (govern p d io trend) (govern p d' io' trend) := by
  obtain ⟨hdem, hcalc⟩ := h.calcDemand p hio trend
  unfold Pgov.govern
  generalize Pgov.calcDemand p d io trend = demand at hdem hcalc ⊢
  generalize Pgov.calcDemand p d' io' trend = demand' at hdem hcalc ⊢
  obtain ⟨e, dem⟩ := demand
  obtain ⟨e', dem'⟩ := demand'
  obtain rfl : dem' = dem := hdem
  obtain ⟨hgo, hgate⟩ := hcalc.govGate p hio trend dem'.pEff
  dsimp only at hgo hgate ⊢
  generalize Pgov.govGate p e io trend dem'.pEff = gate at hgo hgate ⊢
  generalize Pgov.govGate p e' io' trend dem'.pEff = gate' at hgo hgate ⊢
  obtain ⟨g, go⟩ := gate
  obtain ⟨g', go'⟩ := gate'
  obtain rfl : go' = go := hgo
  cases go' with
  | false => exact hgate
  | true => exact hgate.mapChannels p hio trend dem'

theorem Alike.execGovLogic (h : Alike formatted keep d d') (p : Policy)
    (hio : SameTick formatted keep io io') :
    Alike formatted keep (execGovLogic p d io) (execGovLogic p d' io') := by
  obtain ⟨hflag, hdisp⟩ := h.updateDisp hio
  unfold Pgov.execGovLogic
  generalize Pgov.updateDisp d io = shown at hflag hdisp ⊢
  generalize Pgov.updateDisp d' io' = shown' at hflag hdisp ⊢
  obtain ⟨e, suspended⟩ := shown
  obtain ⟨e', suspended'⟩ := shown'
  obtain rfl : suspended' = suspended := hflag
  cases suspended' with
  | true => exact hdisp
  | false =>
    obtain ⟨hres, hread⟩ := hdisp.readPsi hio
    dsimp only at hres hread ⊢
    generalize Pgov.readPsi e io = read at hres hread ⊢
    generalize Pgov.readPsi e' io' = read' at hres hread ⊢
    obtain ⟨r, res⟩ := read
    obtain ⟨r', res'⟩ := read'
    obtain rfl : res' = res := hres
    cases res' with
    | none => exact hread
    | some trend => exact hread.govern p hio trend

theorem Alike.dormantTick (h : Alike formatted keep d d') (hio : SameTick formatted keep io io') :
    Alike formatted keep (dormantTick d io) (dormantTick d' io') := by
  obtain ⟨hflag, hdisp⟩ := h.updateDisp hio
  unfold Pgov.dormantTick
  generalize Pgov.updateDisp d io = shown at hflag hdisp ⊢
  generalize Pgov.updateDisp d' io' = shown' at hflag hdisp ⊢
  obtain ⟨e, suspended⟩ := shown
  obtain ⟨e', suspended'⟩ := shown'
  obtain rfl : suspended' = suspended := hflag
  cases suspended' with
  | true => exact hdisp
  | false => exact hdisp.setWake pgMaxPollMs

theorem Alike.adjust (h : Alike formatted keep d d') (hio : SameTick formatted keep io io') :
    Alike formatted keep { d with ctx.nextWake := adjWake io d.ctx.nextWake }
      { d' with ctx.nextWake := adjWake io' d'.ctx.nextWake } := by
  obtain ⟨psi, channels, trace, rfl, hpsi, hkept⟩ := h.exists_swap
  obtain ⟨write, rfl, -⟩ := hio.exists_writes
  exact ⟨rfl, hpsi, hkept⟩

theorem Alike.tick (h : Alike formatted keep d d') (p : Policy)
    (hio : SameTick formatted keep io io') :
    Alike formatted keep (pgGovProcess p d io) (pgGovProcess p d' io') := by
  have hlog := h.log (.tick io.now) (.tick io'.now)
  have hdormant := hlog.dormantTick hio
  have hexec := (hlog.execGovLogic p hio).adjust hio
  obtain ⟨psi, channels, trace, heq, -, -⟩ := hlog.exists_swap
  have hflag : (d'.log (.tick io'.now)).ctx.dormant = (d.log (.tick io.now)).ctx.dormant := by
    rw [heq]
    rfl
  apply related_ite (R := Alike formatted keep)
  · exact Iff.of_eq (congrArg (· = true) hflag)
  · exact hdormant
  · exact hexec

end Steps

end Pgov
