import BgtDvb.Saa7231Ts2dtl

/-!
# The DVB adapter of the SAA7231

`saa7231_dvb.c`: the demultiplexer callbacks that start and stop the stream of an adapter, and the
interrupt handler that hands each filled buffer to the demultiplexer.  The two handlers
`saa7231_dvbts2d0_evhandler` and `saa7231_dvbts2d1_evhandler` differ in the adapter only; the model
is of one adapter, with the stream operations that `saa7231_ts2dtl_init` installs.
-/

namespace BgtDvb.Saa7231

/-- The parameters that `saa7231_dma_start` sets before it acquires the stream. -/
def tsParams : StreamParams := ⟨8, 188, 348, 188, .ts⟩

/-- `saa7231_dma_start` on an existing stream. -/
def dmaStartStream (o : StartOutcome) (s : Stream) : ℤ × Stream :=
  let r := saa7231Ts2dtlAcquire o { s with params := tsParams }
  if r.1 < 0 then (-eio, r.2)
  else
    let r' := saa7231Ts2dtlRun r.2
    if r'.1 < 0 then (-eio, r'.2) else (r'.1, r'.2)

/-- `saa7231_dma_stop` on an existing stream. -/
def dmaStopStream (s : Stream) : ℤ × Stream :=
  let r := saa7231Ts2dtlStop s
  if r.1 < 0 then (-eio, r.2) else (0, r.2)

/-- `struct saa7231_dvb`: whether the demultiplexer has a frontend, the feed counter (an 8-bit
word) and the stream, if it could be registered. -/
structure Dvb where
  frontend : Bool
  feeds : ℕ
  stream : Option Stream

def saa7231DmaStart (o : StartOutcome) (d : Dvb) : ℤ × Dvb :=
  match d.stream with
  | none => (-enomem, d)
  | some s => ((dmaStartStream o s).1, { d with stream := some (dmaStartStream o s).2 })

def saa7231DmaStop (d : Dvb) : ℤ × Dvb :=
  match d.stream with
  | none => (-enomem, d)
  | some s => ((dmaStopStream s).1, { d with stream := some (dmaStopStream s).2 })

def saa7231DvbStartFeed (o : StartOutcome) (d : Dvb) : ℤ × Dvb :=
  if !d.frontend then (-einval, d)
  else
    let d := { d with feeds := (d.feeds + 1) % 256 }
    let r := if d.feeds = 1 then saa7231DmaStart o d else (0, d)
    -- the success path and `goto err` meet before `ret = dvb->feeds`
    (r.2.feeds, r.2)

def saa7231DvbStopFeed (d : Dvb) : ℤ × Dvb :=
  if !d.frontend then (-einval, d)
  else
    let d := { d with feeds := (d.feeds + 255) % 256 }
    let r := if d.feeds = 0 then saa7231DmaStop d else (0, d)
    (0, r.2)

/-- The slot that the handler reprogrammes: `index_w` wraps to 0 above the last slot. -/
def slotIndex (indexW : ℕ) : ℕ := if ts2dBuffers - 1 < indexW then 0 else indexW

/-- The first half of the handler: take a buffer of the ring and load it into the next slot. -/
def evhandlerWrite (s : Stream) : Stream :=
  if ringFull s.ring then s
  else
    let w := saa7231RingWrite s.ring
    { saa7231Ts2dtlSetBuffer s (slotIndex s.indexW) w.1 with
      ring := w.2
      indexW := slotIndex s.indexW + 1 }

/-- The second half: take a buffer off the ring for `dvb_dmx_swfilter_packets`. -/
def evhandlerRead (s : Stream) : Option ℕ × Stream :=
  if ringEmpty s.ring then (none, s)
  else
    let r := saa7231RingRead s.ring
    (some r.1, { s with ring := r.2 })

/-- `saa7231_dvbts2d0_evhandler`: the buffer delivered, if any, and the stream. -/
def saa7231Dvbts2dEvhandler (rd : BufferReadings) (s : Stream) : Option ℕ × Stream :=
  evhandlerRead (evhandlerWrite (saa7231Ts2dtlGetBuffer rd s).2.2)

end BgtDvb.Saa7231
