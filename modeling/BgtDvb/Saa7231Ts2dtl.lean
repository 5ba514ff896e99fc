import BgtDvb.Saa7231Dev
import BgtDvb.Saa7231Ring

/-!
# The TS2DTL stream engine

`saa7231_ts2dtl.c`: a transport stream is written by the device into eight buffer slots, each a
page table address in the MMU and a start address in the S2D module.  The definitions follow the
source:

* `saa7231Ts2dtlInit`, `saa7231InitPtables`, `saa7231Ts2dtlSetparams`, `saa7231Ts2dtlRunPrepare` —
  programme the slots from the first eight buffers of the ring and wait for the page tables to be
  loaded.

The array `ring->dmabuf` is a function on indices; the indices from `ringSiz` on lie beyond the
allocation.  `offsetReads` records the elements that `saa7231Ts2dtlSetBuffer` reads through
`DMAADDR`, and `fillsSinceReset` is the buffer counter of the hardware, which a write to
`S2D_SW_RST` clears.  Every writer of registers is given as the list of its writes.
-/

namespace BgtDvb.Saa7231

open BgtDvb.RegFile

/-- `TS2D_BUFFERS`. -/
def ts2dBuffers : ℕ := 8

/-- `SAA7231_PAGE_SIZE`. -/
def pageSize : ℕ := 4096

/-! ### DMA buffers -/

/-- The fields of a scatterlist entry that the driver sets. -/
structure SgEntry where
  length : ℕ
  offset : ℕ
  deriving Repr, DecidableEq

/-- `sg_set_page(&sg_list[i], pg, SAA7231_PAGE_SIZE, 0)`. -/
def sgSetPage : SgEntry := ⟨pageSize, 0⟩

/-- `dmabuf->offset` as `saa7231_dmabuf_sgpagefill` works it out from the first entry. -/
def dmabufOffset (sg : SgEntry) : ℕ := (sg.length + sg.offset) % pageSize

/-- `struct saa7231_dmabuf`: the page table's bus address, the offset into the first page, and the
address handed to the demultiplexer. -/
structure Dmabuf where
  ptPhys : ℕ
  offset : ℕ
  virt : ℕ
  deriving Repr, DecidableEq

/-- The page table addresses that `dma_map_single` returns for the buffers of a ring: 64-bit bus
addresses of distinct pages. -/
structure PtMapping where
  pt : ℕ → ℕ
  pt_lt : ∀ i, i < ringSiz → pt i < 2 ^ 64
  pt_inj : ∀ i j, i < ringSiz → j < ringSiz → pt i = pt j → i = j

/-- The array that `saa7231_ts2dtl_init` allocates; `beyond` is whatever memory follows it. -/
def allocRing (m : PtMapping) (virt : ℕ → ℕ) (beyond : ℕ → Dmabuf) : ℕ → Dmabuf := fun i =>
  if i < ringSiz then ⟨m.pt i, dmabufOffset sgSetPage, virt i⟩ else beyond i

/-! ### Registers -/

def dmach (port : StreamPort) : ℕ := port.id + 1

def mmuDmaConfig (ch : ℕ) : Reg := (.mmu, 0x0080 + 0x0004 * ch)

def ptaBase (ch : ℕ) : ℕ := 0x400 + 0x040 * ch

/-- `MMU_PTA(LSB, i, ch)`. -/
def mmuPtaLsb (i ch : ℕ) : Reg := (.mmu, ptaBase ch + i * 8 + 0)

/-- `MMU_PTA(MSB, i, ch)`. -/
def mmuPtaMsb (i ch : ℕ) : Reg := (.mmu, ptaBase ch + i * 8 + 4)

def ptaLsb (mem : ℕ) : ℕ := mem % 2 ^ 32

def ptaMsb (mem : ℕ) : ℕ := mem / 2 ^ 32 % 2 ^ 32

def s2dS2dCtrl (port : StreamPort) : Reg := (.s2d port, 0x0000)

def s2dCfgCtrl (port : StreamPort) : Reg := (.s2d port, 0x0004)

def s2dMaxBStart (port : StreamPort) : Reg := (.s2d port, 0x0008)

def s2dClkGating (port : StreamPort) : Reg := (.s2d port, 0x000C)

def s2dChxCtrl (port : StreamPort) : Reg := (.s2d port, 0x0010)

/-- `S2D_CHx_B<i>_B_START_ADDRESS(0)`. -/
def s2dBStartAddress (port : StreamPort) (i : ℕ) : Reg :=
  (.s2d port, if i = 0 then 0x0024 else if i = 1 then 0x0044 else 0x0080 + i * 4)

def s2dIntClrEnable (port : StreamPort) : Reg := (.s2d port, 0x0fd8)

def s2dIntSetEnable (port : StreamPort) : Reg := (.s2d port, 0x0fdc)

def s2dIntClrStatus (port : StreamPort) : Reg := (.s2d port, 0x0fe8)

def s2dSwRst (port : StreamPort) : Reg := (.s2d port, 0x0FF0)

/-- `PTA(buf, x)` reads the element `x` places after the one `buf` points at. -/
def ptaElem (buf x : ℕ) : ℕ := buf + x

/-- `DMAADDR(tc, port, buf, x)`, with `buf` a pointer to the element of that index. -/
def dmaaddr (tc : ℕ) (port : StreamPort) (dmabuf : ℕ → Dmabuf) (buf x : ℕ) : ℕ :=
  (tc <<< 29) ||| (x <<< 26) ||| (dmach port <<< 21) ||| (dmabuf (ptaElem buf x)).offset

/-- `INDEX(addr)`. -/
def indexOf (addr : ℕ) : ℕ := (addr &&& 0x1c000000) >>> 26

/-! ### The stream -/

/-- `enum stream_type`; `unset` is the zero of a fresh stream. -/
inductive StreamType where
  | unset | audio | video | vbi | ts | ps
  deriving Repr, DecidableEq

/-- `struct stream_params`. -/
structure StreamParams where
  bps : ℕ
  spl : ℕ
  lines : ℕ
  pitch : ℕ
  type : StreamType
  deriving Repr, DecidableEq

/-- `struct saa7231_dtl`. -/
structure Dtl where
  curInput : ℕ
  addrPrev : ℕ
  xLength : ℕ
  yLength : ℕ
  bLength : ℕ
  dataLoss : ℕ
  wrError : ℕ
  tagError : ℕ
  dtlHalt : ℕ
  streamRun : Bool
  clockRun : Bool
  deriving Repr, DecidableEq

/-- `struct saa7231_stream` together with the registers it programmes. -/
structure Stream where
  port : StreamPort
  clk : ℕ
  config : ℕ
  dtl : Dtl
  params : StreamParams
  indexW : ℕ
  ring : Ring
  dmabuf : ℕ → Dmabuf
  regs : Reg → ℕ
  fillsSinceReset : ℕ
  offsetReads : List ℕ

/-! ### Setting up -/

def initPtablesWrites (port : StreamPort) (dmabuf : ℕ → Dmabuf) : List (Reg × ℕ) :=
  (mmuDmaConfig (dmach port), ts2dBuffers - 1) ::
    (List.range ts2dBuffers).flatMap fun i =>
      [(mmuPtaLsb i (dmach port), ptaLsb (dmabuf i).ptPhys),
        (mmuPtaMsb i (dmach port), ptaMsb (dmabuf i).ptPhys)]

def saa7231InitPtables (s : Stream) : Stream :=
  { s with regs := wrAll s.regs (initPtablesWrites s.port s.dmabuf), indexW := s.indexW + 8 }

/-- The part of `struct saa7231_config` that the TS ports use. -/
structure TsConfig where
  ts0Cfg : ℕ
  ts1Cfg : ℕ
  ts0Clk : ℕ
  ts1Clk : ℕ
  deriving Repr, DecidableEq

/-- The two port switches of `saa7231_ts2dtl_init`: `config`, `clk` and the clock gates it closes. -/
def initPort (cfg : TsConfig) : StreamPort → Option (ℕ × ℕ × List (Reg × ℕ))
  | .ts2dDtv0 => some (0x0, 0, [((.stream, 0x0094), 0)])
  | .ts2dDtv1 => some (0x0, 0, [((.stream, 0x0098), 0)])
  | .ts2dExt0 => some (cfg.ts0Cfg, cfg.ts0Clk, [((.stream, 0x009C), 0)])
  | .ts2dExt1 => some (cfg.ts1Cfg, cfg.ts1Clk, [((.stream, 0x00A0), 0)])
  | .ts2dCam => some (0x0181, 0, [((.stream, 0x00A4), 0), ((.stream, 0x00B0), 0)])
  | _ => none

/-- The stream of a `kzalloc`, with its buffers and its ring. -/
def freshStream (port : StreamPort) (config clk : ℕ) (dmabuf : ℕ → Dmabuf) (regs : Reg → ℕ) : Stream :=
  { port := port, clk := clk, config := config
    dtl := ⟨0, 0, 0, 0, 0, 0, 0, 0, 0, false, false⟩
    params := ⟨0, 0, 0, 0, .unset⟩
    indexW := 0, ring := saa7231RingInit ringSiz, dmabuf := dmabuf, regs := regs
    fillsSinceReset := 0, offsetReads := [] }

/-- `saa7231_ts2dtl_init` once the buffers are allocated; `none` is the refusal of a port that is
not a TS port. -/
def saa7231Ts2dtlInit (cfg : TsConfig) (port : StreamPort) (dmabuf : ℕ → Dmabuf) (regs : Reg → ℕ) :
    Option Stream :=
  (initPort cfg port).map fun p =>
    let s := saa7231InitPtables (freshStream port p.1 p.2.1 dmabuf regs)
    { s with regs := wrAll s.regs p.2.2 }

/-- The port switch of `saa7231_ts2dtl_setparams`; `none` is the invalid port. -/
def setparamsPortWrites (s : Stream) : Option (List (Reg × ℕ)) :=
  match s.port with
  | .ts2dDtv0 => some [((.stream, 0x0094), 0x1)]
  | .ts2dDtv1 => some [((.stream, 0x0098), 0x1)]
  | .ts2dExt0 => some [((.stream, 0x009C), s.clk), ((.stream, 0x0208), s.config &&& 0x7f)]
  | .ts2dExt1 => some [((.stream, 0x00A0), s.clk), ((.stream, 0x020C), s.config &&& 0x7f)]
  | .ts2dCam =>
    some [((.stream, 0x00A4), 0x1), ((.stream, 0x0210), s.config &&& 0x7f), ((.stream, 0x00B0), 0x1),
      ((.stream, 0x0204), (s.config >>> 7) &&& 0x1ff), ((.stream, 0x0200), s.dtl.curInput)]
  | _ => none

/-- `block_control` with `DFOT` set and `BTAG` clear. -/
def blockControl : ℕ := setField (setField 0 1 1 0x1) 1 0 0x0

/-- The writes of `saa7231_ts2dtl_setparams` after the page tables. -/
def setparamsBlockWrites (s : Stream) : List (Reg × ℕ) :=
  [(s2dS2dCtrl s.port, 0x0), (s2dCfgCtrl s.port, 0x0), (s2dMaxBStart s.port, ts2dBuffers - 1),
    (s2dClkGating s.port, 0x2), ((.s2d s.port, 0x0020), blockControl),
    (s2dBStartAddress s.port 0, dmaaddr 0 s.port s.dmabuf 0 0),
    ((.s2d s.port, 0x0028), s.params.pitch * s.params.lines),
    ((.s2d s.port, 0x002C), s.params.pitch), ((.s2d s.port, 0x0030), s.params.pitch),
    ((.s2d s.port, 0x0034), s.params.lines), ((.s2d s.port, 0x0040), blockControl),
    (s2dBStartAddress s.port 1, dmaaddr 0 s.port s.dmabuf 0 1),
    ((.s2d s.port, 0x0048), s.params.pitch * s.params.lines),
    ((.s2d s.port, 0x004C), s.params.pitch), ((.s2d s.port, 0x0050), s.params.pitch),
    ((.s2d s.port, 0x0054), s.params.lines),
    (s2dBStartAddress s.port 2, dmaaddr 0 s.port s.dmabuf 0 2),
    (s2dBStartAddress s.port 3, dmaaddr 0 s.port s.dmabuf 0 3),
    (s2dBStartAddress s.port 4, dmaaddr 0 s.port s.dmabuf 0 4),
    (s2dBStartAddress s.port 5, dmaaddr 0 s.port s.dmabuf 0 5),
    (s2dBStartAddress s.port 6, dmaaddr 0 s.port s.dmabuf 0 6),
    (s2dBStartAddress s.port 7, dmaaddr 0 s.port s.dmabuf 0 7), (s2dChxCtrl s.port, 0x29c)]

/-- The reset of the S2D module, which clears its buffer counter, and the page tables. -/
def setparamsReset (s : Stream) (ws : List (Reg × ℕ)) : Stream :=
  saa7231InitPtables { s with
    regs := wr (wrAll s.regs ws) (s2dSwRst s.port) 0x1
    fillsSinceReset := 0 }

def setparamsBlock (s : Stream) : Stream :=
  { s with regs := wrAll s.regs (setparamsBlockWrites s) }

def saa7231Ts2dtlSetparams (s : Stream) : ℤ × Stream :=
  match setparamsPortWrites s with
  | none => (-einval, s)
  | some ws =>
    if s.params.type ≠ .ts then (-einval, setparamsReset s ws)
    else (0, setparamsBlock (setparamsReset s ws))

/-- `do { .. delay--; run = RD(MMU_DMA_CONFIG(ch)) & 0x80; } while (!run && delay)`, on the
successive values the register returns. -/
def preloadRun (rd : ℕ → ℕ) : ℕ → ℕ → Bool
  | 0, _ => false
  | delay + 1, n => if (rd n &&& 0x80) ≠ 0 then true else preloadRun rd delay (n + 1)

/-- The writes of `saa7231_ts2dtl_run_prepare` that start the load. -/
def preload (s : Stream) : Stream :=
  let regs := wrAll s.regs
    [(s2dBStartAddress s.port 0, dmaaddr 0 s.port s.dmabuf 0 0),
      (s2dBStartAddress s.port 1, dmaaddr 0 s.port s.dmabuf 0 1)]
  let reg := regs (mmuDmaConfig (dmach s.port)) &&& (2 ^ 32 - 1 - 0x40)
  { s with
    regs := wrAll regs
      [(mmuDmaConfig (dmach s.port), reg), (mmuDmaConfig (dmach s.port), reg ||| 0x40)]
    dtl := { s.dtl with addrPrev := 0xffffff } }

def saa7231Ts2dtlRunPrepare (rd : ℕ → ℕ) (s : Stream) : ℤ × Stream :=
  if preloadRun rd 1000 0 then (0, preload s) else (-einval, preload s)

/-- What the outside decides during a start: whether the clocks can be activated, and what the MMU
returns while the page tables are loaded. -/
structure StartOutcome where
  clocksOk : Bool
  preload : ℕ → ℕ

/-- The counters that `saa7231_ts2dtl_pause` clears. -/
def clearErrors (d : Dtl) : Dtl :=
  { d with
    xLength := 0, yLength := 0, bLength := 0, dataLoss := 0, wrError := 0, tagError := 0, dtlHalt := 0 }

/-- The steps of `saa7231_ts2dtl_acquire` under the lock, with the code of the first that fails. -/
def acquireSteps (o : StartOutcome) (s : Stream) : ℤ × Stream :=
  if s.params.pitch = 0 ∨ s.params.lines = 0 ∨ s.params.bps = 0 ∨ s.params.spl = 0 then (-einval, s)
  else if !s.dtl.clockRun && !o.clocksOk then (-einval, s)
  else
    let s := { s with dtl := { s.dtl with clockRun := true } }
    let r := saa7231Ts2dtlSetparams s
    if r.1 < 0 then (-einval, r.2)
    else
      let r' := saa7231Ts2dtlRunPrepare o.preload r.2
      if r'.1 < 0 then (-einval, r'.2) else (r'.1, r'.2)

/-- `saa7231_ts2dtl_acquire` ends in `return 0`, whatever `ret` holds. -/
def saa7231Ts2dtlAcquire (o : StartOutcome) (s : Stream) : ℤ × Stream := (0, (acquireSteps o s).2)

def saa7231Ts2dtlRun (s : Stream) : ℤ × Stream :=
  let regs := wr s.regs (s2dChxCtrl s.port) (s.regs (s2dChxCtrl s.port) ||| 0x1)
  let reg := regs (s2dS2dCtrl s.port)
  let regs := wrAll regs
    [(s2dIntClrStatus s.port, 0x3fff), (s2dIntSetEnable s.port, 0x1800),
      (s2dS2dCtrl s.port, reg ||| 0x1)]
  (0, { s with regs := regs, dtl := { s.dtl with streamRun := true } })

/-- `saa7231_ts2dtl_pause`; `rdEnable` and `rdStatus` are what the interrupt registers return. -/
def saa7231Ts2dtlPause (rdEnable rdStatus : ℕ) (s : Stream) : ℤ × Stream :=
  let reg := s.regs (s2dS2dCtrl s.port)
  if reg.testBit 0 then
    let s := { s with
      regs := wrAll s.regs
        [(s2dS2dCtrl s.port, reg &&& 0xfffffffe), (s2dIntClrEnable s.port, rdEnable),
          (s2dIntClrStatus s.port, rdStatus)]
      dtl := { s.dtl with streamRun := false } }
    let r := saa7231Ts2dtlSetparams s
    if r.1 ≠ 0 then (-einval, r.2) else (0, { r.2 with dtl := clearErrors r.2.dtl })
  else (0, { s with dtl := clearErrors { s.dtl with streamRun := false } })

/-- `saa7231_ts2dtl_stop` only forgets that the clock runs. -/
def saa7231Ts2dtlStop (s : Stream) : ℤ × Stream :=
  (0, { s with dtl := { s.dtl with clockRun := false } })

/-- The S2D engine runs: bit 0 of `S2D_S2D_CTRL`. -/
def s2dEnabled (s : Stream) : Bool := (s.regs (s2dS2dCtrl s.port)).testBit 0

/-! ### The interrupt side -/

def setBufferWrites (s : Stream) (index buf : ℕ) : List (Reg × ℕ) :=
  [(mmuPtaLsb index (dmach s.port), ptaLsb (s.dmabuf buf).ptPhys),
    (mmuPtaMsb index (dmach s.port), ptaMsb (s.dmabuf buf).ptPhys),
    (s2dBStartAddress s.port index, dmaaddr 0 s.port s.dmabuf buf index)]

/-- The eight cases of the source differ in the slot only; `buf` is the element that the pointer
argument points at. -/
def saa7231Ts2dtlSetBuffer (s : Stream) (index buf : ℕ) : Stream :=
  if index < ts2dBuffers then
    { s with
      regs := wrAll s.regs (setBufferWrites s index buf)
      offsetReads := s.offsetReads ++ [ptaElem buf index] }
  else s

/-- What `saa7231_ts2dtl_get_buffer` reads from the device. -/
structure BufferReadings where
  addr : ℕ
  stat : ℕ
  addr' : ℕ
  addr'' : ℕ
  deriving Repr, DecidableEq

def countErrors (stat : ℕ) (d : Dtl) : Dtl :=
  { d with
    xLength := d.xLength + if stat.testBit 2 then 1 else 0
    yLength := d.yLength + if stat.testBit 3 then 1 else 0
    bLength := d.bLength + if stat.testBit 4 then 1 else 0
    dataLoss := d.dataLoss + if stat.testBit 5 then 1 else 0
    wrError := d.wrError + if stat.testBit 6 then 1 else 0
    tagError := d.tagError + if stat.testBit 7 then 1 else 0
    dtlHalt := d.dtlHalt + if stat.testBit 8 then 1 else 0 }

def saa7231Ts2dtlGetBuffer (rd : BufferReadings) (s : Stream) : ℤ × ℕ × Stream :=
  if !s.dtl.streamRun then (0, 0, s)
  else
    let s := if rd.stat = 0 then s else
      { s with
        regs := wr s.regs (s2dIntClrStatus s.port) rd.stat
        dtl := countErrors rd.stat s.dtl }
    if rd.addr = 0xffffffff then (-einval, 0, s)
    else
      let reg := if indexOf s.dtl.addrPrev = indexOf rd.addr' then rd.addr'' else rd.addr'
      (0, indexOf reg, { s with dtl := { s.dtl with addrPrev := reg } })

/-! ### Which modules a setup writes -/

theorem setparamsBlockWrites_module (s : Stream) :
    ∀ w ∈ setparamsBlockWrites s, w.1.1 = .s2d s.port := by
  simp [setparamsBlockWrites, s2dS2dCtrl, s2dCfgCtrl, s2dMaxBStart, s2dClkGating, s2dBStartAddress,
    s2dChxCtrl]

end BgtDvb.Saa7231
