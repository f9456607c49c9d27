import Pgov.Parser
import Pgov.PgTime

namespace Pgov

open FixedWidth DecimalText

def eio : ℤ := 5
def ebadf : ℤ := 9
def einval : ℤ := 22
def enodata : ℤ := 61

def uint64Max : ℕ := 2 ^ 64 - 1
def sysfsBackoffBaseMs : ℕ := 1000
def sysfsBackoffMaxMs : ℕ := 60000
def pgSysfsFailMax : ℕ := 7

inductive SysfsChkType
  | abs
  | rel
  | strict
  deriving DecidableEq, Repr

structure SysfsChk where
  type : SysfsChkType
  thresh : ℕ
  deriving DecidableEq, Repr

structure SysfsCache where
  last : ℕ
  fd : ℤ
  base : ℕ
  retryMs : ℤ
  fails : ℕ
  hasBase : Bool
  active : Bool
  deriving DecidableEq, Repr

inductive Pwrite
  | wrote (n : ℕ)
  | failed (errno : ℕ+)
  deriving DecidableEq, Repr

structure Candidate where
  fd : Option ℕ
  text : Except ℕ+ (List UInt8)

def pgSysfsReadI32 (text : Except ℕ+ (List UInt8)) : Except ℤ ℤ :=
  match text with
  | .error errno => .error (-(errno : ℕ))
  | .ok bytes =>
    let buf := bytes.take 32
    if buf.length = 0 then .error (-enodata)
    else
      let (val, valid) := pgParseI32 buf
      if valid then .ok val else .error (-einval)

theorem readI32_fits {text : Except ℕ+ (List UInt8)} {val : ℤ}
    (h : pgSysfsReadI32 text = .ok val) : Fits 32 val := by
  cases text with
  | error errno => cases h
  | ok bytes =>
    simp only [pgSysfsReadI32] at h
    split at h
    · cases h
    · split at h
      · cases h
        exact parseI32Loop_fits _ _ _ _
      · cases h

def sysfsUnmapped : SysfsCache :=
  { last := uint64Max, fd := -1, base := 0, retryMs := 0, fails := 0, hasBase := false,
    active := false }

def pgSysfsCacheInit : List Candidate → SysfsCache × ℤ
  | [] => (sysfsUnmapped, 0)
  | path :: paths =>
    match path.fd with
    | none => pgSysfsCacheInit paths
    | some fd =>
      let cache := { sysfsUnmapped with fd := fd, active := true }
      match pgSysfsReadI32 path.text with
      | .ok cur =>
        if cur ≥ 0 then ({ cache with base := (u32 cur).toNat, hasBase := true }, 1) else (cache, 1)
      | .error _ => (cache, 1)

def pgSysfsWriteStrm (fd : ℤ) (value : ℕ) (res : Pwrite) : ℤ :=
  if fd < 0 then -ebadf
  else
    match res with
    | .failed errno => -(errno : ℕ)
    | .wrote n => if n ≠ (pgFmtU64 value).length then -eio else 0

/-- The flag says whether a write was issued. -/
def pgSysfsRestore (cache : SysfsCache) (res : Pwrite) : SysfsCache × Bool :=
  if !cache.active || !cache.hasBase || cache.last = uint64Max || cache.last = cache.base then
    (cache, false)
  else if pgSysfsWriteStrm cache.fd cache.base res = 0 then
    ({ cache with last := cache.base }, true)
  else (cache, true)

def absolute (cur tgt thresh : ℕ) : Bool :=
  if cur = uint64Max then true
  else if cur = tgt then false
  else
    let diff := if cur > tgt then cur - tgt else tgt - cur
    diff ≥ thresh

def relative (cur tgt tol : ℕ) : Bool :=
  if cur = uint64Max then true
  else if cur = tgt then false
  else if cur = 0 then tgt ≠ 0
  else
    let diff := if cur > tgt then cur - tgt else tgt - cur
    diff * 1000 % 2 ^ 64 ≥ cur * tol % 2 ^ 64

def chkUpdate (strat : SysfsChk) (cur tgt : ℕ) : Bool :=
  match strat.type with
  | .abs => absolute cur tgt strat.thresh
  | .rel => relative cur tgt strat.thresh
  | .strict => cur ≠ tgt

structure UpdateCall where
  value : ℕ
  force : Bool
  strat : Option SysfsChk
  before : Timespec
  after : Timespec
  res : Pwrite

def updateDue (cache : SysfsCache) (call : UpdateCall) : Bool :=
  call.force || (call.strat.map (chkUpdate · cache.last call.value)).getD false

def backingOff (cache : SysfsCache) (now : Timespec) : Prop :=
  cache.fails ≠ 0 ∧ i32 (u32 (monoMs now - cache.retryMs)) < 0

instance (cache : SysfsCache) (now : Timespec) : Decidable (backingOff cache now) :=
  inferInstanceAs (Decidable (_ ∧ _))

def scheduleRetry (cache : SysfsCache) (now : Timespec) : SysfsCache :=
  let fails := if cache.fails < pgSysfsFailMax then cache.fails + 1 else cache.fails
  let delay := sysfsBackoffBaseMs <<< (fails - 1)
  let delay := if delay > sysfsBackoffMaxMs then sysfsBackoffMaxMs else delay
  { cache with fails := fails, retryMs := u32 (monoMs now + delay) }

def pgSysfsUpdate (cache : SysfsCache) (call : UpdateCall) : SysfsCache × Bool :=
  if !cache.active then (cache, false)
  else
    if !updateDue cache call then (cache, false)
    else if backingOff cache call.before then (cache, false)
    else if pgSysfsWriteStrm cache.fd call.value call.res = 0 then
      ({ cache with last := call.value, fails := 0 }, true)
    else (scheduleRetry cache call.after, true)

/-- An integer node after a `pwrite` of `bytes`: only a complete write reaches it. -/
def nodePwrite (node : ℤ) (bytes : List UInt8) (res : Pwrite) : ℤ :=
  if res = .wrote bytes.length then ((lineValue bytes).map Int.ofNat).getD node else node

structure Channel where
  cache : SysfsCache
  node : ℤ

def Channel.update (c : Channel) (call : UpdateCall) : Channel :=
  let (cache, issued) := pgSysfsUpdate c.cache call
  { cache, node := if issued then nodePwrite c.node (pgFmtU64 call.value) call.res else c.node }

def Channel.restore (c : Channel) (res : Pwrite) : Channel :=
  let (cache, issued) := pgSysfsRestore c.cache res
  { cache, node := if issued then nodePwrite c.node (pgFmtU64 c.cache.base) res else c.node }

end Pgov
