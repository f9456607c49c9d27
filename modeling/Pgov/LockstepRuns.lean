import Pgov.Lockstep
import Pgov.ReactorRuns

namespace Pgov

open FixedWidth FdTable Runs DecimalText

structure SameEvent (formatted : Prop) (keep : Sink → Prop) (ev ev' : ReadyEvent) : Prop where
  fd : ev'.fd = ev.fd
  sigRead : ev'.sigRead = ev.sigRead
  tick : SameTick formatted keep ev.tick ev'.tick

inductive SameWait (formatted : Prop) (keep : Sink → Prop) : WaitOut → WaitOut → Prop
  | interrupted (start finish : Timespec) :
    SameWait formatted keep (.interrupted start finish) (.interrupted start finish)
  | failed : SameWait formatted keep .failed .failed
  | timeout {io io' : TickIo} (h : SameTick formatted keep io io') :
    SameWait formatted keep (.timeout io) (.timeout io')
  | ready {event event' : ReadyEvent} {events events' : List ReadyEvent}
    (h : List.Forall₂ (SameEvent formatted keep) (event :: events) (event' :: events')) :
    SameWait formatted keep (.ready event events) (.ready event' events')

section Turns

variable {formatted : Prop} {keep : Sink → Prop} {p : Policy} {d d' : Daemon}

theorem Alike.shutdownReq (h : Alike formatted keep d d') :
    d'.ctx.shutdownReq = d.ctx.shutdownReq := by
  rw [h.swapped]
  rfl

theorem Alike.kern (h : Alike formatted keep d d') : d'.kern = d.kern := by
  rw [h.swapped]
  rfl

theorem Alike.requestShutdown (h : Alike formatted keep d d') :
    Alike formatted keep (requestShutdown d) (requestShutdown d') := by
  obtain ⟨psi, channels, trace, rfl, hpsi, hkept⟩ := h.exists_swap
  exact ⟨rfl, hpsi, hkept⟩

theorem Alike.interrupted (h : Alike formatted keep d d') (start finish : Timespec) :
    Alike formatted keep (epollInterrupted d start finish) (epollInterrupted d' start finish) := by
  obtain ⟨psi, channels, trace, rfl, hpsi, hkept⟩ := h.exists_swap
  apply related_ite (R := Alike formatted keep) Iff.rfl
  · exact ⟨rfl, hpsi, hkept⟩
  · exact ⟨rfl, hpsi, hkept⟩

theorem Alike.timeout (h : Alike formatted keep d d') {io io' : TickIo}
    (hio : SameTick formatted keep io io') :
    Alike formatted keep (handleTimeout p d io) (handleTimeout p d' io') := by
  have htick := (h.log .onTimeout .onTimeout).tick p hio
  obtain ⟨psi, channels, trace, rfl, hpsi, hkept⟩ := h.exists_swap
  exact related_ite (R := Alike formatted keep) Iff.rfl htick ⟨rfl, hpsi, hkept⟩

theorem Alike.event (h : Alike formatted keep d d') {ev ev' : ReadyEvent}
    (hev : SameEvent formatted keep ev ev') :
    Alike formatted keep (epollEvent p d ev) (epollEvent p d' ev') := by
  have htick := (h.log .onTrigger .onTrigger).tick p hev.tick
  have hstop := h.requestShutdown
  obtain ⟨psi, channels, trace, rfl, hpsi, hkept⟩ := h.exists_swap
  have hsame : Alike formatted keep d (d.swap psi channels trace) := ⟨rfl, hpsi, hkept⟩
  have hsig : ev'.fd = d.ctx.sigFd ↔ ev.fd = d.ctx.sigFd := by rw [hev.fd]
  have htrg : ev'.fd = d.ctx.trgFd ↔ ev.fd = d.ctx.trgFd := by rw [hev.fd]
  have hread : ev'.sigRead = true ↔ ev.sigRead = true := by rw [hev.sigRead]
  apply related_ite (R := Alike formatted keep) hsig
  · exact related_ite (R := Alike formatted keep) hread hstop hsame
  apply related_ite (R := Alike formatted keep) htrg
  · exact related_ite (R := Alike formatted keep) Iff.rfl htick hsame
  · exact hsame

theorem Alike.turn (h : Alike formatted keep d d') {out out' : WaitOut}
    (hout : SameWait formatted keep out out') :
    Alike formatted keep (reactorTurn p d out) (reactorTurn p d' out') := by
  have hlog := h.log (.wait d.ctx.nextWake) (.wait d'.ctx.nextWake)
  have hend : d'.ctx.shutdownReq = true ↔ d.ctx.shutdownReq = true := by rw [h.shutdownReq]
  apply related_ite (R := Alike formatted keep) hend h
  cases hout with
  | interrupted start finish => exact hlog.interrupted start finish
  | failed => exact hlog.requestShutdown
  | timeout hio => exact hlog.timeout hio
  | ready hevents => exact List.rel_foldl (fun _ _ he _ _ hev => he.event hev) hlog hevents

theorem Alike.run (h : Alike formatted keep d d') {waits waits' : List WaitOut}
    (hwaits : List.Forall₂ (SameWait formatted keep) waits waits') :
    Alike formatted keep (run (reactorTurn p) d waits) (run (reactorTurn p) d' waits') :=
  List.rel_foldl (fun _ _ he _ _ hout => he.turn hout) h hwaits

theorem sameTick_self {io : TickIo} (h : formatted → FromKernel io.psi) :
    SameTick formatted keep io io := ⟨rfl, fun _ _ => rfl, h⟩

theorem sameWait_self {out : WaitOut} (h : formatted → out.Ticks fun io => FromKernel io.psi) :
    SameWait formatted keep out out := by
  cases out with
  | interrupted start finish => exact .interrupted start finish
  | failed => exact .failed
  | timeout io => exact .timeout (sameTick_self h)
  | ready event events =>
    apply SameWait.ready
    apply List.forall₂_same.mpr
    intro ev hev
    exact ⟨rfl, rfl, sameTick_self fun hf => h hf ev hev⟩

theorem channels_ext {channels channels' : Channels}
    (h : ∀ i, channels'.get i = channels.get i) : channels' = channels := by
  obtain ⟨lat, gran, wake, mig, walt, ucl⟩ := channels
  obtain ⟨lat', gran', wake', mig', walt', ucl'⟩ := channels'
  obtain rfl : lat' = lat := h .schedLat
  obtain rfl : gran' = gran := h .schedGran
  obtain rfl : wake' = wake := h .schedWake
  obtain rfl : mig' = mig := h .schedMig
  obtain rfl : walt' = walt := h .schedWalt
  obtain rfl : ucl' = ucl := h .schedUcl
  rfl

end Turns

/-- A daemon about to read the pressure afresh has forgotten what it read before: whatever that was,
every run from there takes the same course. -/
theorem psi_history_forgotten (p : Policy) (d : Daemon) (hfirst : d.ctx.psi.firstRun = true)
    (lastReadTs : Timespec) (lastTot : ℕ) (filter : KalmanState) (trace : List GovEvent)
    {waits : List WaitOut} (hreads : ∀ out ∈ waits, out.Ticks fun io => FromKernel io.psi) :
    let s := run (reactorTurn p) d waits
    let s' := run (reactorTurn p)
      (d.swap { d.ctx.psi with lastReadTs, lastTot, filter } d.ctx.channels trace) waits
    s'.kern = s.kern ∧
      (∃ lastReadTs lastTot filter,
        s'.ctx = { s.ctx with psi := { s.ctx.psi with lastReadTs, lastTot, filter } }) ∧
      (s.ctx.psi.firstRun = false → s'.ctx = s.ctx) := by
  intro s s'
  have hstart : Alike True (fun _ => True) d
      (d.swap { d.ctx.psi with lastReadTs, lastTot, filter } d.ctx.channels trace) :=
    ⟨rfl, .inr ⟨trivial, hfirst, lastReadTs, lastTot, filter, rfl⟩, fun _ _ => rfl⟩
  have hwaits : List.Forall₂ (SameWait True fun _ => True) waits waits :=
    List.forall₂_same.mpr fun out hout => sameWait_self fun _ => hreads out hout
  have hrun : Alike True (fun _ => True) s s' := hstart.run hwaits
  have hkern := hrun.kern
  obtain ⟨psi, channels, trace, heq, hpsi, hkept⟩ := hrun.exists_swap
  have hctx : s'.ctx = { s.ctx with psi } := by
    rw [heq, Daemon.swap, channels_ext fun i => hkept i trivial]
  rcases hpsi with rfl | ⟨-, hfirst', lastReadTs', lastTot', filter', rfl⟩
  · exact ⟨hkern, ⟨_, _, _, hctx⟩, fun _ => hctx⟩
  · refine ⟨hkern, ⟨_, _, _, hctx⟩, fun hread => ?_⟩
    rw [hfirst'] at hread
    exact absurd hread (by simp)

def calmLine : PsiLine :=
  let zero : Decimal :=
    ⟨[48], some [48, 48], isDigit_of_all (by decide), isDigit_of_all (by decide)⟩
  ⟨zero, zero, zero, [55], by decide, by decide, by decide, isDigit_of_all (by decide), by decide,
    by decide⟩

theorem psi_history_forgotten_calm :
    (run (reactorTurn (.tuned bareDevice bareDevice))
      (idleDaemon.swap { idleDaemon.ctx.psi with lastTot := 5000000 } idleDaemon.ctx.channels [])
      [.timeout (idleTickIo 1 57 (.ok (calmLine.someLine ++ [])))]).ctx =
    (run (reactorTurn (.tuned bareDevice bareDevice)) idleDaemon
      [.timeout (idleTickIo 1 57 (.ok (calmLine.someLine ++ [])))]).ctx := by
  have hreads : ∀ out ∈ [WaitOut.timeout (idleTickIo 1 57 (.ok (calmLine.someLine ++ [])))],
      out.Ticks fun io => FromKernel io.psi := by
    intro out hout
    rw [List.mem_singleton.mp hout]
    exact .inr ⟨calmLine, [], by decide, rfl⟩
  apply (psi_history_forgotten (.tuned bareDevice bareDevice) idleDaemon rfl ⟨0, 0⟩ 5000000
    pgKalmanInit [] hreads).2.2
  decide +kernel

/-- Nothing the governor does depends on the tunables: whichever are there and whatever becomes of
their writes, it takes the same course, and a tunable is written what it would be written alone. -/
theorem tunables_isolated (p : Policy) (keep : Sink → Prop) (d : Daemon) {channels : Channels}
    (hkept : ∀ i, keep i → channels.get i = d.ctx.channels.get i) (trace : List GovEvent)
    {waits waits' : List WaitOut} (hwaits : List.Forall₂ (SameWait False keep) waits waits') :
    let s := run (reactorTurn p) d waits
    let s' := run (reactorTurn p) (d.swap d.ctx.psi channels trace) waits'
    s'.kern = s.kern ∧ s'.ctx = { s.ctx with channels := s'.ctx.channels } ∧
      ∀ i, keep i → s'.ctx.channels.get i = s.ctx.channels.get i := by
  intro s s'
  have hstart : Alike False keep d (d.swap d.ctx.psi channels trace) :=
    ⟨rfl, .inl rfl, hkept⟩
  have hrun : Alike False keep s s' := hstart.run hwaits
  have hkern := hrun.kern
  obtain ⟨psi, channels, trace, heq, hpsi, hkept⟩ := hrun.exists_swap
  obtain rfl : psi = s.ctx.psi := hpsi.resolve_right fun h => h.1
  rw [heq] at hkern ⊢
  exact ⟨hkern, rfl, hkept⟩

def mappedChannel (fd : ℤ) : Channel := ⟨{ sysfsUnmapped with fd, active := true }, 0⟩

def latencyDaemon : Daemon :=
  { idleDaemon with ctx.channels.schedLat := mappedChannel 8 }

def shortTick : TickIo :=
  let tick := idleTickIo 1 57 (.ok calmLine.someLine)
  tick.withWrites (Function.update (fun _ => ⟨⟨1, 0⟩, ⟨1, 0⟩, .wrote 0⟩) .schedLat tick.latIo)

theorem tunables_isolated_latency :
    (run (reactorTurn (.tuned bareDevice bareDevice))
      (latencyDaemon.swap latencyDaemon.ctx.psi
        { latencyDaemon.ctx.channels with schedUcl := mappedChannel 9 } [])
      [.timeout shortTick]).ctx.channels.schedLat =
    (run (reactorTurn (.tuned bareDevice bareDevice)) latencyDaemon
      [.timeout (idleTickIo 1 57 (.ok calmLine.someLine))]).ctx.channels.schedLat := by
  have htick : SameTick False (· = .schedLat) (idleTickIo 1 57 (.ok calmLine.someLine))
      shortTick := by
    refine ⟨rfl, ?_, False.elim⟩
    rintro i rfl
    rfl
  have hkept : ∀ i, i = Sink.schedLat →
      ({ latencyDaemon.ctx.channels with schedUcl := mappedChannel 9 } : Channels).get i =
        latencyDaemon.ctx.channels.get i := by
    rintro i rfl
    rfl
  exact (tunables_isolated (.tuned bareDevice bareDevice) (· = .schedLat) latencyDaemon hkept []
    (.cons (.timeout htick) .nil)).2.2 .schedLat rfl

end Pgov
