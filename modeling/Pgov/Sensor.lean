import Pgov.SysfsCache

namespace Pgov

open FixedWidth

abbrev ReadOut := Except ℕ+ (List UInt8)

def readBuf (out : ReadOut) (size : ℕ) : Option (List UInt8) :=
  match out with
  | .error _ => none
  | .ok bytes => if bytes.take size = [] then none else some (bytes.take size)

def erange : ℤ := 34

structure TempSensor where
  fd : ℤ
  scale : ℤ
  deriving DecidableEq, Repr

structure BatSensor where
  fd : ℤ
  deriving DecidableEq, Repr

/-- `fd` holds the first `n` descriptors of the source's array. -/
structure BlSensor where
  fd : List ℤ
  deriving DecidableEq, Repr

def pgBlMax : ℕ := 4
def scaleMilli : ℤ := 1000
def scaleDeci : ℤ := 10
def fallbackTempCpu : ℤ := intToQ16 65
def fallbackTempBat : ℤ := intToQ16 35
def fallbackBatCap : ℤ := intToQ16 100
def fallbackBl : ℤ := 0

/-- The return code with the temperature. -/
def readTemp (sensor : TempSensor) (out : ReadOut) (fallback : ℤ) : ℤ × ℤ :=
  if sensor.fd < 0 then (-ebadf, fallback)
  else
    match readBuf out 16 with
    | none => (-eio, fallback)
    | some buf =>
      let (val, valid) := pgParseI32 buf
      if !valid then (-einval, fallback)
      else if sensor.scale ≤ 0 then (-einval, fallback)
      else
        let rawQ32 := (val * q16One).tdiv sensor.scale
        if rawQ32 < intToQ16 (-30) ∨ rawQ32 > intToQ16 150 then (-erange, fallback)
        else (0, i32 rawQ32)

def pgSensorReadCpuTemp (sensor : TempSensor) (out : ReadOut) : ℤ × ℤ :=
  readTemp sensor out fallbackTempCpu

def pgSensorReadBatTemp (sensor : TempSensor) (out : ReadOut) : ℤ × ℤ :=
  readTemp sensor out fallbackTempBat

def pgSensorReadBatCap (sensor : BatSensor) (out : ReadOut) : ℤ × ℤ :=
  if sensor.fd < 0 then (-ebadf, fallbackBatCap)
  else
    match readBuf out 16 with
    | none => (-eio, fallbackBatCap)
    | some buf =>
      let (val, valid) := pgParseI32 buf
      if !valid ∨ val < 0 ∨ val > 100 then (-einval, fallbackBatCap) else (0, intToQ16 val)

def readPanel (best : Option ℤ) (out : ReadOut) : Option ℤ :=
  match readBuf out 16 with
  | none => best
  | some buf =>
    let (val, valid) := pgParseI32 buf
    if !valid then best else some (max (best.getD fallbackBl) val)

def pgSensorReadBl (sensor : BlSensor) (out : ℕ → ReadOut) : ℤ × ℤ :=
  if sensor.fd.length = 0 then (-ebadf, fallbackBl)
  else
    match ((List.range sensor.fd.length).map out).foldl readPanel none with
    | some best => (0, best)
    | none => (-eio, fallbackBl)

end Pgov
