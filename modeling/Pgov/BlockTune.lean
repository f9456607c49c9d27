import Pgov.PathText
import Pgov.Preference
import Pgov.Topology

namespace Pgov

def sysBlock : List UInt8 := ascii "/sys/block"
def qRotational : List UInt8 := ascii "queue/rotational"
def qAddRandom : List UInt8 := ascii "queue/add_random"
def qRqAffinity : List UInt8 := ascii "queue/rq_affinity"
def qScheduler : List UInt8 := ascii "queue/scheduler"
def qFb : List UInt8 := ascii "queue/iosched/fifo_batch"
def qWs : List UInt8 := ascii "queue/iosched/writes_starved"
def qFm : List UInt8 := ascii "queue/iosched/front_merges"
def qSi : List UInt8 := ascii "queue/iosched/slice_idle"

def ignored : List (List UInt8) := ["loop", "ram", "zram", "dm-", "md"].map ascii
def nvme : List (List UInt8) := ["kyber", "mq-deadline", "none"].map ascii
def ufs : List (List UInt8) := ["mq-deadline", "kyber", "deadline", "none"].map ascii
def emmc : List (List UInt8) := ["mq-deadline", "deadline", "noop", "none"].map ascii
def rot : List (List UInt8) := ["bfq", "mq-deadline", "deadline"].map ascii

structure DeviceIo where
  files : SysfsFiles
  write : List UInt8 → WriteIo

abbrev PathWrite := List UInt8 × List UInt8

def checkIgnored (name : List UInt8) : Bool := ignored.any (pgStrHasPrefix name)

def blockPath (name leaf : List UInt8) : List UInt8 := pgStrBuildPath [] 128 sysBlock name leaf

section Device

variable (io : DeviceIo) (name : List UInt8)

def checkRotational : Bool :=
  match pgSysfsReadI32 (io.files (blockPath name qRotational)) with
  | .ok val => val = 1
  | .error _ => false

/-- A string write below the directory of the device: the return code with the `pwrite` it made. -/
def writeLeaf (leaf val : List UInt8) : ℤ × List PathWrite :=
  let (ret, bytes) := pgSysfsWrite (io.write (blockPath name leaf)) val
  (ret, (bytes.map fun bytes => (blockPath name leaf, bytes)).toList)

def setQueue : List PathWrite :=
  (writeLeaf io name qAddRandom (ascii "0")).2 ++ (writeLeaf io name qRqAffinity (ascii "1")).2

/-- The string in the buffer of `len` bytes, or the return code. -/
def readSched (len : ℕ) : Except ℤ (List UInt8) :=
  match io.files (blockPath name qScheduler) with
  | .error errno => .error (-(errno : ℕ))
  | .ok bytes =>
    if bytes.take (len - 1) = [] then .error (-enodata)
    else .ok (CString.str (bytes.take (len - 1)) 0)

def schedPrio : List (List UInt8) :=
  if checkRotational io name then rot
  else if pgStrHasPrefix name (ascii "nvme") then nvme
  else if pgStrHasPrefix name (ascii "mmcblk") then emmc
  else ufs

def selectSched (avail : List UInt8) : Option (List UInt8) :=
  (schedPrio io name).find? (pgStrContains avail)

def setSched (sched : List UInt8) : List PathWrite :=
  if sched = ascii "mq-deadline" ∨ sched = ascii "deadline" then
    (writeLeaf io name qFb (ascii "16")).2 ++ (writeLeaf io name qWs (ascii "2")).2 ++
      (writeLeaf io name qFm (ascii "1")).2
  else if sched = ascii "bfq" then (writeLeaf io name qSi (ascii "0")).2
  else []

def applyBlockTweaks : ℤ × List PathWrite :=
  let queue := setQueue io name
  match readSched io name 128 with
  | .error ret => (ret, queue)
  | .ok buf =>
    match selectSched io name buf with
    | none => (-enoent, queue)
    | some sched =>
      let (ret, writes) := writeLeaf io name qScheduler sched
      if ret < 0 then (ret, queue ++ writes)
      else (0, queue ++ writes ++ setSched io name sched)

end Device

/-- `pg_block_tune`: the return code with the writes made, device by device. -/
def pgBlockTuneWrites (dir : Except ℕ+ (List (List UInt8 × DeviceIo))) : ℤ × List PathWrite :=
  match dir with
  | .error errno => (-(errno : ℕ), [])
  | .ok entries =>
    (0, entries.flatMap fun (name, io) =>
      if name.head? = some 46 then []
      else if checkIgnored name then []
      else (applyBlockTweaks io name).2)

def schedSep (c : UInt8) : Bool := c = 32 ∨ c = 91 ∨ c = 93 ∨ c = 10

section Offered

variable {io : DeviceIo} {name avail s : List UInt8}

def offered (avail : List UInt8) : List (List UInt8) := avail.splitOnP schedSep

theorem schedPrio_mem (io : DeviceIo) (name : List UInt8) :
    schedPrio io name ∈ [rot, nvme, emmc, ufs] := by
  unfold schedPrio
  split_ifs <;> simp

theorem schedPrio_plain (h : s ∈ schedPrio io name) : ∀ c ∈ s, schedSep c = false := by
  have htables : ∀ table ∈ [rot, nvme, emmc, ufs], ∀ s ∈ table,
      (s.all fun c => !schedSep c) = true := by decide
  simpa using htables _ (schedPrio_mem io name) s h

theorem contains_offered (h : s ∈ schedPrio io name) :
    pgStrContains avail s = true ↔ ∃ word ∈ offered avail, s <:+: word := by
  rw [contains_iff, offered]
  exact Substring.infix_pieces (schedPrio_plain h) avail

theorem schedPrio_order {before after : List (List UInt8)}
    (h : schedPrio io name = before ++ ascii "deadline" :: after) : ascii "mq-deadline" ∈ before := by
  have htables : ∀ table ∈ [rot, nvme, emmc, ufs], ascii "deadline" ∈ table →
      ascii "mq-deadline" ∈ table.takeWhile fun s => s ≠ ascii "deadline" := by decide
  apply Preference.mem_before
  rw [← h]
  exact htables _ (schedPrio_mem io name) (by simp [h])

/-- Where a longer name than that of the scheduler cannot mislead the search, the scheduler chosen is
the first of the table that the device offers. -/
theorem sched_offered (hnames : ∀ word ∈ offered avail, ∀ s ∈ schedPrio io name, s <:+: word →
    word = s ∨ s = ascii "deadline" ∧ word = ascii "mq-deadline") :
    selectSched io name avail = (schedPrio io name).find? (· ∈ offered avail) := by
  apply Preference.find_agree
  · intro s hs hoffered
    rw [decide_eq_true_iff] at hoffered
    exact (contains_offered hs).mpr ⟨s, hoffered, List.infix_rfl⟩
  · intro before s after hsplit hs
    have hmem : s ∈ schedPrio io name := by simp [hsplit]
    obtain ⟨word, hword, hinfix⟩ := (contains_offered hmem).mp hs
    rcases hnames word hword s hmem hinfix with rfl | ⟨rfl, rfl⟩
    · exact .inl (by simpa using hword)
    · have hmq := schedPrio_order hsplit
      have hmem' : ascii "mq-deadline" ∈ schedPrio io name := by simp [hsplit, hmq]
      exact .inr ⟨_, hmq, (contains_offered hmem').mpr ⟨_, hword, List.infix_rfl⟩⟩

def oneText (text : String) : DeviceIo :=
  { files := fun _ => .ok (ascii text), write := fun _ => ⟨.ok 3, .wrote 12⟩ }

theorem sched_offered_mq : selectSched (oneText "") (ascii "sda") (ascii "mq-deadline kyber [none]") =
    (schedPrio (oneText "") (ascii "sda")).find?
      (· ∈ offered (ascii "mq-deadline kyber [none]")) :=
  sched_offered (by decide +kernel)

end Offered

section Writes

variable {io : DeviceIo} {name : List UInt8} {w : PathWrite}

def Tuned (name : List UInt8) : Prop := name.head? ≠ some 46 ∧ ∀ kind ∈ ignored, ¬kind <+: name

def Chosen (io : DeviceIo) (name sched : List UInt8) : Prop :=
  ∃ avail, readSched io name 128 = .ok avail ∧ selectSched io name avail = some sched

def Switched (io : DeviceIo) (name sched : List UInt8) : Prop :=
  Chosen io name sched ∧ 0 ≤ (writeLeaf io name qScheduler sched).1

inductive Setting (io : DeviceIo) (name : List UInt8) : List UInt8 → List UInt8 → Prop
  | addRandom : Setting io name qAddRandom (ascii "0")
  | rqAffinity : Setting io name qRqAffinity (ascii "1")
  | scheduler {sched : List UInt8} (h : Chosen io name sched) : Setting io name qScheduler sched
  | deadline {sched leaf val : List UInt8} (h : Switched io name sched)
      (hkind : sched = ascii "mq-deadline" ∨ sched = ascii "deadline")
      (hleaf : (leaf, val) ∈ [(qFb, ascii "16"), (qWs, ascii "2"), (qFm, ascii "1")]) :
      Setting io name leaf val
  | bfq (h : Switched io name (ascii "bfq")) : Setting io name qSi (ascii "0")

def WritesAs (io : DeviceIo) (name leaf val : List UInt8) (w : PathWrite) : Prop :=
  (∃ fd, (io.write (blockPath name leaf)).fd = .ok fd) ∧
    w = ((joinPath sysBlock name leaf).take 127, sysfsBytes val)

theorem blockPath_eq (name leaf : List UInt8) :
    blockPath name leaf = (joinPath sysBlock name leaf).take 127 := buildPath_eq [] (by norm_num) _ _ _

theorem mem_writeLeaf {leaf val : List UInt8} :
    w ∈ (writeLeaf io name leaf val).2 ↔ WritesAs io name leaf val w := by
  rw [writeLeaf, pgSysfsWrite, WritesAs, ← blockPath_eq]
  cases (io.write (blockPath name leaf)).fd with
  | error errno => simp
  | ok fd => cases (io.write (blockPath name leaf)).res <;> simp

theorem mem_setQueue : w ∈ setQueue io name ↔
    WritesAs io name qAddRandom (ascii "0") w ∨ WritesAs io name qRqAffinity (ascii "1") w := by
  rw [setQueue, List.mem_append, mem_writeLeaf, mem_writeLeaf]

theorem mem_setSched {sched : List UInt8} : w ∈ setSched io name sched ↔
    ((sched = ascii "mq-deadline" ∨ sched = ascii "deadline") ∧
        ∃ leaf val, (leaf, val) ∈ [(qFb, ascii "16"), (qWs, ascii "2"), (qFm, ascii "1")] ∧
          WritesAs io name leaf val w) ∨
      (sched = ascii "bfq" ∧ WritesAs io name qSi (ascii "0") w) := by
  have hbfq : ascii "bfq" ≠ ascii "mq-deadline" ∧ ascii "bfq" ≠ ascii "deadline" := by decide
  rw [setSched]
  by_cases hkind : sched = ascii "mq-deadline" ∨ sched = ascii "deadline"
  · have hne : sched ≠ ascii "bfq" := by
      rintro rfl
      exact hkind.elim hbfq.1 hbfq.2
    simp [hkind, hne, mem_writeLeaf, or_and_right, exists_or]
  · rw [if_neg hkind]
    by_cases hsched : sched = ascii "bfq"
    · rw [if_pos hsched, mem_writeLeaf]
      subst hsched
      simp [hbfq.1, hbfq.2]
    · simp [hkind, hsched]

theorem mem_applyBlockTweaks : w ∈ (applyBlockTweaks io name).2 ↔
    ∃ leaf val, Setting io name leaf val ∧ WritesAs io name leaf val w := by
  constructor
  · intro h
    have hqueue (h : w ∈ setQueue io name) :
        ∃ leaf val, Setting io name leaf val ∧ WritesAs io name leaf val w := by
      rcases mem_setQueue.mp h with h | h
      · exact ⟨_, _, .addRandom, h⟩
      · exact ⟨_, _, .rqAffinity, h⟩
    rw [applyBlockTweaks] at h
    cases hread : readSched io name 128 with
    | error ret =>
      rw [hread] at h
      exact hqueue h
    | ok avail =>
      rw [hread] at h
      cases hselect : selectSched io name avail with
      | none =>
        simp only [hselect] at h
        exact hqueue h
      | some sched =>
        have hchosen : Chosen io name sched := ⟨avail, hread, hselect⟩
        simp only [hselect] at h
        split at h
        · rcases List.mem_append.mp h with h | h
          · exact hqueue h
          · exact ⟨_, _, .scheduler hchosen, mem_writeLeaf.mp h⟩
        · rename_i hret
          have hswitched : Switched io name sched := ⟨hchosen, not_lt.mp hret⟩
          rcases List.mem_append.mp h with h | h
          · rcases List.mem_append.mp h with h | h
            · exact hqueue h
            · exact ⟨_, _, .scheduler hchosen, mem_writeLeaf.mp h⟩
          · rcases mem_setSched.mp h with ⟨hkind, leaf, val, hleaf, hw⟩ | ⟨rfl, hw⟩
            · exact ⟨leaf, val, .deadline hswitched hkind hleaf, hw⟩
            · exact ⟨_, _, .bfq hswitched, hw⟩
  · rintro ⟨leaf, val, hset, hw⟩
    have hqueue (h : w ∈ setQueue io name) : w ∈ (applyBlockTweaks io name).2 := by
      rw [applyBlockTweaks]
      split
      · exact h
      · split
        · exact h
        · simp only
          split_ifs <;> simp [h]
    have hknob {sched : List UInt8} (hswitched : Switched io name sched)
        (h : w ∈ setSched io name sched) : w ∈ (applyBlockTweaks io name).2 := by
      obtain ⟨⟨avail, hread, hselect⟩, hret⟩ := hswitched
      simp only [applyBlockTweaks, hread, hselect, if_neg (not_lt.mpr hret)]
      simp [h]
    cases hset with
    | addRandom => exact hqueue (mem_setQueue.mpr (.inl hw))
    | rqAffinity => exact hqueue (mem_setQueue.mpr (.inr hw))
    | scheduler hchosen =>
      obtain ⟨avail, hread, hselect⟩ := hchosen
      have hmem := mem_writeLeaf.mpr hw
      simp only [applyBlockTweaks, hread, hselect]
      split_ifs <;> simp [hmem]
    | deadline hswitched hkind hleaf =>
      exact hknob hswitched (mem_setSched.mpr (.inl ⟨hkind, leaf, val, hleaf, hw⟩))
    | bfq hswitched => exact hknob hswitched (mem_setSched.mpr (.inr ⟨rfl, hw⟩))

theorem tuned_iff : Tuned name ↔ ¬name.head? = some 46 ∧ checkIgnored name = false := by
  simp [Tuned, checkIgnored, ← hasPrefix_iff]

/-- What is written below `/sys/block`: only settings of devices that are tuned, the scheduler they
were chosen from what they offer, and its own parameters once it has taken over. -/
theorem block_tune_writes (entries : List (List UInt8 × DeviceIo)) (w : PathWrite) :
    w ∈ (pgBlockTuneWrites (.ok entries)).2 ↔ ∃ name io, (name, io) ∈ entries ∧ Tuned name ∧
      ∃ leaf val, Setting io name leaf val ∧ WritesAs io name leaf val w := by
  rw [pgBlockTuneWrites, List.mem_flatMap]
  constructor
  · rintro ⟨⟨name, io⟩, hmem, h⟩
    simp only at h
    split_ifs at h with hdot hignored
    · simp at h
    · simp at h
    · exact ⟨name, io, hmem, tuned_iff.mpr ⟨hdot, by simpa using hignored⟩,
        mem_applyBlockTweaks.mp h⟩
  · rintro ⟨name, io, hmem, htuned, hset⟩
    obtain ⟨hdot, hignored⟩ := tuned_iff.mp htuned
    refine ⟨(name, io), hmem, ?_⟩
    simp only
    rw [if_neg hdot, if_neg (by simp [hignored])]
    exact mem_applyBlockTweaks.mpr hset

end Writes

end Pgov
