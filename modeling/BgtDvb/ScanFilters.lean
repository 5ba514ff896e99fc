import BgtDvb.ScanSection

/-!
# Filter scheduler of the scan utility

`util/scan/scan.c` reads its tables through demux filters, of which at most `MAX_RUNNING` run at a time.  A
filter that cannot be started waits, and the waiting filters are tried again when a running one is removed.
`read_filters` walks the table of the running filters while the sections it reads start new filters and the
filters it removes start waiting ones.

* `run_consistent` — **PROVED**: along every run they do, and no `fatal` is reached;
* `run_starved_iff` — **PROVED**: filters wait while none runs exactly if the latest start was one that
  failed while none ran.
-/

namespace BgtDvb.Dvbscan

open BgtDvb.Bitfield

/-! ### Filters -/

def maxRunning : ℕ := 27

/-- `struct section_buf` -/
structure Filter where
  pid : ℤ
  runOnce : Bool
  fd : ℤ
  buf : List UInt8
  timeout : ℤ
  startTime : ℤ
  sections : SectionBuf

/-- `setup_filter` -/
def Filter.setup (longTimeout : Bool) (pid tid tidExt : ℤ) (runOnce segmented : Bool) (timeout : ℤ) : Filter where
  pid := pid
  runOnce := runOnce
  fd := -1
  buf := List.replicate 1024 0
  timeout := if longTimeout = true then 5 * timeout else timeout
  startTime := 0
  sections := setupFilter tid tidExt segmented

/-- `struct dmx_sct_filter_params`, with the three bytes of filter and mask that are used. -/
structure DmxSctFilterParams where
  pid : ℤ
  filter : ℤ × ℤ × ℤ
  mask : ℤ × ℤ × ℤ

/-- What `start_filter` asks of the device. -/
def Filter.params (f : Filter) : DmxSctFilterParams :=
  let tid := f.sections.tableId
  let ext := f.sections.head.tableIdExt
  let useTid := decide (tid < 0x100 ∧ 0 < tid)
  let useExt := decide (ext < 0x10000 ∧ 0 < ext)
  { pid := f.pid % 65536
    filter := (if useTid = true then tid else 0, if useExt = true then ext / 256 else 0,
      if useExt = true then ext % 256 else 0)
    mask := (if useTid = true then 0xff else 0, if useExt = true then 0xff else 0,
      if useExt = true then 0xff else 0) }

/-- `struct service`, as far as `parse_pat` uses it. -/
structure Service where
  serviceId : ℕ
  pmtPid : ℕ
  priv : Bool
  deriving DecidableEq, Repr

structure PollFd where
  fd : ℤ
  revents : Bool
  deriving DecidableEq, Repr

/-- A call of `start_filter`: `n_running` before it, and whether it returned 0. -/
structure Start where
  nRunning : ℤ
  ok : Bool
  deriving DecidableEq, Repr

/-- The scheduler.  Filters are known by their number; `opened` are the descriptors of the demux device
that are open, and `starts` the calls of `start_filter`, the latest first. -/
structure Sched where
  bufs : ℕ → Filter
  next : ℕ
  running : List ℕ
  waiting : List ℕ
  nRunning : ℤ
  pollFds : List PollFd
  pollSectionBufs : List (Option ℕ)
  opened : List ℤ
  services : List Service
  starts : List Start

def Sched.init : Sched where
  bufs _ := Filter.setup false 0 0 (-1) false false 0
  next := 0
  running := []
  waiting := []
  nRunning := 0
  pollFds := List.replicate maxRunning ⟨0, false⟩
  pollSectionBufs := List.replicate maxRunning none
  opened := []
  services := []
  starts := []

/-- What is outside the scheduler.  `openDemux k opened` is the result of `open` in the `k`-th call of
`start_filter`, while `opened` are open. -/
structure Host where
  longTimeout : Bool
  openDemux : ℕ → List ℤ → Option ℤ
  fresh : ∀ {k opened fd}, openDemux k opened = some fd → 0 ≤ fd ∧ fd ∉ opened
  setFilter : ℕ → DmxSctFilterParams → Bool
  time : ℕ → ℤ
  parseTable : Parsed → List Service → List Service

/-- The four `fatal`s, an access outside `section_done`, and a loop that does not end. -/
inductive Fault where
  | tooManyPollFds
  | fdOnRunning
  | nRunning
  | pollSectionBufs
  | sectionDone
  | unfinished
  deriving DecidableEq, Repr

/-! ### The functions -/

/-- The loop of `update_poll_fds`. -/
def fillPollFds (bufs : ℕ → Filter) :
    List ℕ → ℕ → List PollFd → List (Option ℕ) → Except Fault (ℕ × List PollFd × List (Option ℕ))
  | [], i, fds, secs => .ok (i, fds, secs)
  | s :: running, i, fds, secs =>
    if maxRunning ≤ i then .error .tooManyPollFds
    else if (bufs s).fd = -1 then .error .fdOnRunning
    else fillPollFds bufs running (i + 1) (fds.set i ⟨(bufs s).fd, false⟩) (secs.set i (some s))

/-- `update_poll_fds` -/
def updatePollFds (st : Sched) : Except Fault Sched :=
  match fillPollFds st.bufs st.running 0 (st.pollFds.map fun p => { p with fd := -1 })
    (List.replicate maxRunning none) with
  | .error e => .error e
  | .ok (i, fds, secs) =>
    if (i : ℤ) ≠ st.nRunning then .error .nRunning
    else .ok { st with pollFds := fds, pollSectionBufs := secs }

def Sched.setBuf (st : Sched) (s : ℕ) (f : Filter) : Sched :=
  { st with bufs := Function.update st.bufs s f }

@[simp] theorem Sched.setBuf_bufs_self (st : Sched) (s : ℕ) (f : Filter) : (st.setBuf s f).bufs s = f := by
  simp [Sched.setBuf]

def Sched.started (st : Sched) (ok : Bool) : Sched :=
  { st with starts := ⟨st.nRunning, ok⟩ :: st.starts }

def Filter.restart (f : Filter) (fd now : ℤ) : Filter :=
  { f with
    fd := fd
    startTime := now
    sections := { f.sections with head := { f.sections.head with done := false } } }

/-- `list_del_init` and `list_add` of `start_filter`. -/
def Sched.moveToRunning (st : Sched) (s : ℕ) (fd : ℤ) : Sched :=
  { st with
    running := s :: st.running.erase s
    waiting := st.waiting.erase s
    nRunning := st.nRunning + 1
    opened := fd :: st.opened }

/-- `list_del` of `stop_filter`. -/
def Sched.dropRunning (st : Sched) (s : ℕ) (fd : ℤ) : Sched :=
  { st with
    running := st.running.erase s
    nRunning := st.nRunning - 1
    opened := st.opened.erase fd }

/-- `start_filter`: whether it returned 0. -/
def startFilter (host : Host) (st : Sched) (s : ℕ) : Except Fault (Bool × Sched) :=
  let f := st.bufs s
  let k := st.starts.length
  if (maxRunning : ℤ) ≤ st.nRunning then .ok (false, st.started false)
  else
    match host.openDemux k st.opened with
    | none => .ok (false, (st.setBuf s { f with fd := -1 }).started false)
    | some fd =>
      -- `err1` closes the descriptor and leaves its number behind
      if host.setFilter k f.params = false then .ok (false, (st.setBuf s { f with fd := fd }).started false)
      else
        (updatePollFds (((st.setBuf s (f.restart fd (host.time k))).started true).moveToRunning s fd)).map
          fun st => (true, st)

/-- `stop_filter` -/
def stopFilter (st : Sched) (s : ℕ) : Except Fault Sched :=
  let f := st.bufs s
  updatePollFds ((st.setBuf s { f with fd := -1 }).dropRunning s f.fd)

/-- `add_filter` on a filter that was set up just before. -/
def addFilter (host : Host) (st : Sched) (f : Filter) : Except Fault Sched :=
  (startFilter host { st.setBuf st.next f with next := st.next + 1 } st.next).map fun r =>
    if r.1 = true then r.2 else { r.2 with waiting := r.2.waiting ++ [st.next] }

/-- The loop of `remove_filter`. -/
def startWaiting (host : Host) : ℕ → Sched → Except Fault Sched
  | 0, _ => .error .unfinished
  | fuel + 1, st =>
    match st.waiting with
    | [] => .ok st
    | s :: _ =>
      match startFilter host st s with
      | .error e => .error e
      | .ok (false, st) => .ok st
      | .ok (true, st) => startWaiting host fuel st

/-- `remove_filter` -/
def removeFilter (host : Host) (st : Sched) (s : ℕ) : Except Fault Sched :=
  match stopFilter st s with
  | .error e => .error e
  | .ok st => startWaiting host (st.waiting.length + 1) st

/-- `find_service`, or `alloc_service` -/
def findOrAllocService (services : List Service) (serviceId : ℕ) : Service :=
  (services.find? fun s => decide (s.serviceId = serviceId)).getD ⟨serviceId, 0, false⟩

/-- The services with the one that `findOrAllocService` gives changed. -/
def setService (s : Service) : List Service → List Service
  | [] => [s]
  | s' :: services => if s'.serviceId = s.serviceId then s :: services else s' :: setService s services

/-- `parse_pat` -/
def parsePat (host : Host) (st : Sched) (buf : List UInt8) (sectionLength : ℕ) : Except Fault Sched :=
  if sectionLength = 0 then .ok st
  else
    let serviceId := (buf.getD 0 0).toNat * 256 + (buf.getD 1 0).toNat
    let pmtPid := (buf.getD 2 0 &&& 0x1f).toNat * 256 + (buf.getD 3 0).toNat
    if serviceId = 0 then parsePat host st (buf.drop 4) (sectionLength - 4)
    else
      let s := { findOrAllocService st.services serviceId with pmtPid := pmtPid }
      if s.priv = false ∧ pmtPid ≠ 0 then
        let st := { st with services := setService { s with priv := true } st.services }
        match addFilter host st (Filter.setup host.longTimeout pmtPid 0x02 s.serviceId true false 5) with
        | .error e => .error e
        | .ok st => parsePat host st (buf.drop 4) (sectionLength - 4)
      else
        parsePat host { st with services := setService s st.services } (buf.drop 4) (sectionLength - 4)
termination_by sectionLength

/-- The parser of a table: the PAT starts filters, of the others the services are kept. -/
def parseBody (host : Host) (st : Sched) (p : Parsed) : Except Fault Sched :=
  if p.tableId = 0 then parsePat host st p.buf p.sectionLength
  else .ok { st with services := host.parseTable p st.services }

/-- `read_sections`: whether it returned 1; `data` is what `read` gave. -/
def readSections (host : Host) (st : Sched) (s : ℕ) (data : Option (List UInt8)) : Except Fault (Bool × Sched) :=
  let f := st.bufs s
  if f.sections.head.done = true ∧ f.sections.segmented = false then .ok (true, st)
  else
    match data with
    | none => .ok (false, st)
    | some data =>
      let data := data.take 1024
      let buf := data ++ f.buf.drop data.length
      let st := st.setBuf s { f with buf := buf }
      if data.length < 4 ∨ data.length ≠ (sectionHdr buf).length + 3 then .ok (false, st)
      else
        match parseSection f.sections buf with
        | none => .error .sectionDone
        | some (ret, parsed, sections) =>
          let st := st.setBuf s { f with buf := buf, sections := sections }
          match parsed with
          | none => .ok (decide (ret = 1), st)
          | some p => (parseBody host st p).map fun st => (decide (ret = 1), st)

/-- What `poll`, and in the `i`-th round of the loop `read` and `time`, give. -/
structure Poll where
  revents : ℕ → Bool
  data : ℕ → Option (List UInt8)
  now : ℕ → ℤ

/-- The loop of `read_filters`. -/
def readLoop (host : Host) (p : Poll) : ℕ → ℕ → Sched → Except Fault Sched
  | 0, _, _ => .error .unfinished
  | fuel + 1, i, st =>
    if (i : ℤ) < st.nRunning then
      match st.pollSectionBufs.getD i none with
      | none => .error .pollSectionBufs
      | some s =>
        match (if (st.pollFds.getD i ⟨-1, false⟩).revents = true then readSections host st s (p.data i)
          else .ok (false, st)) with
        | .error e => .error e
        | .ok (done, st) =>
          if (done = true ∨ p.now i > (st.bufs s).startTime + (st.bufs s).timeout) ∧
              (st.bufs s).runOnce = true then
            match removeFilter host st s with
            | .error e => .error e
            | .ok st => readLoop host p fuel (i + 1) st
          else readLoop host p fuel (i + 1) st
    else .ok st

/-- `read_filters` -/
def readFilters (host : Host) (st : Sched) (p : Poll) : Except Fault Sched :=
  readLoop host p (maxRunning + 1) 0 { st with
    pollFds := st.pollFds.mapIdx fun i q => if (i : ℤ) < st.nRunning then { q with revents := p.revents i } else q }

/-- The steps: a filter is set up and added, the running filter at a position is removed, the filters are
read, another transponder is tuned to. -/
inductive Op where
  | add (pid tid tidExt : ℤ) (runOnce segmented : Bool) (timeout : ℤ)
  | remove (k : ℕ)
  | read (p : Poll)
  | tune (services : List Service)

def step (host : Host) (st : Sched) : Op → Except Fault Sched
  | .add pid tid tidExt runOnce segmented timeout =>
    addFilter host st (Filter.setup host.longTimeout pid tid tidExt runOnce segmented timeout)
  | .remove k =>
    match st.running[k]? with
    | none => .ok st
    | some s => removeFilter host st s
  | .read p => readFilters host st p
  | .tune services => .ok { st with services := services }

/-! ### Lists and tables agree -/

/-- The lists and the descriptors, apart from the tables for `poll`. -/
structure Sched.Ready (st : Sched) : Prop where
  count : st.nRunning = st.running.length
  bound : st.running.length ≤ maxRunning
  nodup : (st.running ++ st.waiting).Nodup
  known : ∀ s ∈ st.running ++ st.waiting, s < st.next
  opened : st.opened.Perm (st.running.map fun s => (st.bufs s).fd)
  distinct : st.opened.Nodup
  real : ∀ fd ∈ st.opened, 0 ≤ fd
  records : ∀ s, (st.bufs s).sections.Wf
  pollLength : st.pollFds.length = maxRunning
  pollBufsLength : st.pollSectionBufs.length = maxRunning

/-- The first `n_running` entries of the tables are the running filters with their descriptors. -/
structure Sched.Consistent (st : Sched) : Prop extends st.Ready where
  polled : (st.pollFds.take st.running.length).map PollFd.fd = st.running.map fun s => (st.bufs s).fd
  polledBufs : st.pollSectionBufs.take st.running.length = st.running.map some

variable {st : Sched} {s i : ℕ} {f : Filter}

theorem Sched.Ready.fd_nonneg (h : st.Ready) (hs : s ∈ st.running) : 0 ≤ (st.bufs s).fd :=
  h.real _ (h.opened.mem_iff.mpr (List.mem_map_of_mem hs))

theorem Sched.Ready.running_nodup (h : st.Ready) : st.running.Nodup := h.nodup.of_append_left

theorem take_set_succ {α : Type*} (l : List α) (h : i < l.length) (x : α) :
    (l.set i x).take (i + 1) = l.take i ++ [x] := by
  rw [List.take_add_one, List.take_set_of_le (Nat.le_refl i), List.getElem?_set_self h]
  rfl

/-- **The loop** writes one entry for each filter and no other. -/
theorem fillPollFds_spec {bufs : ℕ → Filter} (running : List ℕ) (hfd : ∀ s ∈ running, (bufs s).fd ≠ -1) :
    ∀ (i : ℕ) (fds : List PollFd) (secs : List (Option ℕ)), fds.length = maxRunning →
      secs.length = maxRunning → i + running.length ≤ maxRunning →
      ∃ fds' secs', fillPollFds bufs running i fds secs = .ok (i + running.length, fds', secs') ∧
        fds'.length = maxRunning ∧ secs'.length = maxRunning ∧
        fds'.take (i + running.length) = fds.take i ++ running.map (fun s => ⟨(bufs s).fd, false⟩) ∧
        secs'.take (i + running.length) = secs.take i ++ running.map some := by
  induction running with
  | nil =>
    intro i fds secs hfds hsecs _
    exact ⟨fds, secs, rfl, hfds, hsecs, by simp, by simp⟩
  | cons s running ih =>
    intro i fds secs hfds hsecs hle
    rw [List.length_cons] at hle
    obtain ⟨fds', secs', hrun, hfds', hsecs', htake, htake'⟩ :=
      ih (fun s hs => hfd s (List.mem_cons_of_mem _ hs)) (i + 1) (fds.set i ⟨(bufs s).fd, false⟩)
        (secs.set i (some s)) (by rw [List.length_set, hfds]) (by rw [List.length_set, hsecs]) (by omega)
    have hlen : i + 1 + running.length = i + (s :: running).length := by
      rw [List.length_cons]
      omega
    rw [take_set_succ _ (by omega), hlen] at htake htake'
    refine ⟨fds', secs', ?_, hfds', hsecs', ?_, ?_⟩
    · rw [fillPollFds, if_neg (by omega), if_neg (hfd s List.mem_cons_self), hrun, hlen]
    · rw [htake, List.append_assoc]
      rfl
    · rw [htake', List.append_assoc]
      rfl

/-- **`update_poll_fds`** reaches none of its `fatal`s, and makes the tables agree with the lists. -/
theorem updatePollFds_spec (h : st.Ready) :
    ∃ fds secs, updatePollFds st = .ok { st with pollFds := fds, pollSectionBufs := secs } ∧
      Sched.Consistent { st with pollFds := fds, pollSectionBufs := secs } := by
  have hfd : ∀ s ∈ st.running, (st.bufs s).fd ≠ -1 := fun s hs => by
    have := h.fd_nonneg hs
    omega
  obtain ⟨fds, secs, hrun, hfds, hsecs, htake, htake'⟩ := fillPollFds_spec st.running hfd 0
    (st.pollFds.map fun p => { p with fd := -1 }) (List.replicate maxRunning none)
    (by rw [List.length_map, h.pollLength]) List.length_replicate (by rw [Nat.zero_add]; exact h.bound)
  rw [Nat.zero_add, List.take_zero, List.nil_append] at htake htake'
  refine ⟨fds, secs, ?_, { h with pollLength := hfds, pollBufsLength := hsecs, polled := ?_, polledBufs := htake' }⟩
  · rw [updatePollFds, hrun, Nat.zero_add]
    exact if_neg (not_not.mpr h.count.symm)
  · rw [htake, List.map_map]
    rfl

theorem map_fd_update (bufs : ℕ → Filter) {running : List ℕ} (f : Filter) (h : s ∈ running → f.fd = (bufs s).fd) :
    running.map (fun r => (Function.update bufs s f r).fd) = running.map fun r => (bufs r).fd := by
  refine List.map_congr_left fun r hr => ?_
  by_cases hrs : r = s
  · subst hrs
    rw [Function.update_self, h hr]
  · rw [Function.update_of_ne hrs]

theorem wf_update {bufs : ℕ → Filter} (h : ∀ r, (bufs r).sections.Wf) (hf : f.sections.Wf) (r : ℕ) :
    (Function.update bufs s f r).sections.Wf := by
  by_cases hrs : r = s
  · subst hrs
    rw [Function.update_self]
    exact hf
  · rw [Function.update_of_ne hrs]
    exact h r

theorem Sched.Ready.setBuf (h : st.Ready) (hfd : s ∈ st.running → f.fd = (st.bufs s).fd) (hf : f.sections.Wf) :
    (st.setBuf s f).Ready :=
  { h with
    opened := h.opened.trans (List.Perm.of_eq (map_fd_update _ _ hfd).symm)
    records := wf_update h.records hf }

theorem Sched.Consistent.setBuf (h : st.Consistent) (hfd : s ∈ st.running → f.fd = (st.bufs s).fd)
    (hf : f.sections.Wf) : (st.setBuf s f).Consistent :=
  { h.toReady.setBuf hfd hf with
    polled := h.polled.trans (map_fd_update _ _ hfd).symm
    polledBufs := h.polledBufs }

theorem Sched.Consistent.started (h : st.Consistent) (ok : Bool) : (st.started ok).Consistent :=
  { h with }

theorem Filter.restart_wf (h : f.sections.Wf) (fd now : ℤ) : (f.restart fd now).sections.Wf where
  lengths g hg := by
    rcases List.mem_cons.mp hg with rfl | hg
    · exact h.lengths f.sections.head List.mem_cons_self
    · exact h.lengths g (List.mem_cons_of_mem _ hg)
  unsegmented := h.unsegmented
  unnamed := h.unnamed

theorem Sched.Ready.moveToRunning (h : st.Ready) (hs : s ∉ st.running) (hk : s < st.next)
    (hroom : st.running.length < maxRunning) (hf : f.sections.Wf) (hnonneg : 0 ≤ f.fd) (hfresh : f.fd ∉ st.opened)
    (ok : Bool) : (((st.setBuf s f).started ok).moveToRunning s f.fd).Ready where
  count := by
    have hcount := h.count
    show st.nRunning + 1 = ((s :: st.running.erase s).length : ℤ)
    rw [List.erase_of_not_mem hs, List.length_cons, hcount]
    rfl
  bound := by
    show (s :: st.running.erase s).length ≤ maxRunning
    rw [List.erase_of_not_mem hs, List.length_cons]
    exact hroom
  nodup := by
    have hwaiting : st.waiting.Nodup := h.nodup.of_append_right
    show (s :: st.running.erase s ++ st.waiting.erase s).Nodup
    rw [List.erase_of_not_mem hs, List.cons_append, List.nodup_cons]
    refine ⟨fun hmem => ?_, h.nodup.sublist (List.Sublist.append_left List.erase_sublist _)⟩
    rcases List.mem_append.mp hmem with hmem | hmem
    · exact hs hmem
    · exact hwaiting.not_mem_erase hmem
  known r hr := by
    show r < st.next
    rcases List.mem_append.mp hr with hr | hr
    · rcases List.mem_cons.mp hr with rfl | hr
      · exact hk
      · exact h.known r (List.mem_append_left _ (List.mem_of_mem_erase hr))
    · exact h.known r (List.mem_append_right _ (List.mem_of_mem_erase hr))
  opened := by
    have hkept := map_fd_update st.bufs f fun hr => absurd hr hs
    show (f.fd :: st.opened).Perm ((s :: st.running.erase s).map fun r => (Function.update st.bufs s f r).fd)
    rw [List.erase_of_not_mem hs, List.map_cons, Function.update_self, hkept]
    exact h.opened.cons _
  distinct := List.nodup_cons.mpr ⟨hfresh, h.distinct⟩
  real d hd := by
    rcases List.mem_cons.mp hd with rfl | hd
    · exact hnonneg
    · exact h.real d hd
  records := wf_update h.records hf
  pollLength := h.pollLength
  pollBufsLength := h.pollBufsLength

theorem Sched.Ready.dropRunning (h : st.Ready) (hs : s ∈ st.running) (hf : f.sections.Wf) :
    ((st.setBuf s f).dropRunning s (st.bufs s).fd).Ready where
  count := by
    have hcount := h.count
    have hlen := List.length_erase_of_mem hs
    have hpos := List.length_pos_of_mem hs
    show st.nRunning - 1 = ((st.running.erase s).length : ℤ)
    omega
  bound := List.length_erase_le.trans h.bound
  nodup := h.nodup.sublist (List.Sublist.append_right List.erase_sublist _)
  known r hr := by
    rcases List.mem_append.mp hr with hr | hr
    · exact h.known r (List.mem_append_left _ (List.mem_of_mem_erase hr))
    · exact h.known r (List.mem_append_right _ hr)
  opened := by
    have hgone : s ∉ st.running.erase s := h.running_nodup.not_mem_erase
    have hkept := map_fd_update st.bufs f fun hr => absurd hr hgone
    have hsplit := h.opened.trans ((List.perm_cons_erase hs).map fun r => (st.bufs r).fd)
    rw [List.map_cons] at hsplit
    show (st.opened.erase (st.bufs s).fd).Perm
      ((st.running.erase s).map fun r => (Function.update st.bufs s f r).fd)
    rw [hkept]
    exact (List.cons_perm_iff_perm_erase.mp hsplit.symm).2.symm
  distinct := h.distinct.erase _
  real d hd := h.real d (List.mem_of_mem_erase hd)
  records := wf_update h.records hf
  pollLength := h.pollLength
  pollBufsLength := h.pollBufsLength

/-! ### One start, one stop -/

variable (host : Host)

/-- **`start_filter`** on a filter that does not run: it fails and the lists stay, or the filter runs. -/
theorem startFilter_spec (h : st.Consistent) (hs : s ∉ st.running) (hk : s < st.next) :
    ∃ ok st', startFilter host st s = .ok (ok, st') ∧ st'.Consistent ∧ st'.next = st.next ∧
      st'.starts = ⟨st.nRunning, ok⟩ :: st.starts ∧
      (ok = false → st'.running = st.running ∧ st'.waiting = st.waiting) ∧
      (ok = true → st'.running = s :: st.running ∧ st'.waiting = st.waiting.erase s) := by
  have hfree : ∀ f : Filter, s ∈ st.running → f.fd = (st.bufs s).fd := fun _ hr => absurd hr hs
  have hfail : ∀ fd : ℤ, ((st.setBuf s { st.bufs s with fd := fd }).started false).Consistent :=
    fun fd => (h.setBuf (f := { st.bufs s with fd := fd }) (hfree _) (h.records s)).started false
  unfold startFilter
  dsimp only
  by_cases hfull : (maxRunning : ℤ) ≤ st.nRunning
  · rw [if_pos hfull]
    exact ⟨false, _, rfl, h.started false, rfl, rfl, fun _ => ⟨rfl, rfl⟩, by simp⟩
  rw [if_neg hfull]
  cases hopen : host.openDemux st.starts.length st.opened with
  | none => exact ⟨false, _, rfl, hfail (-1), rfl, rfl, fun _ => ⟨rfl, rfl⟩, by simp⟩
  | some fd =>
    dsimp only
    by_cases hset : host.setFilter st.starts.length (st.bufs s).params = false
    · rw [if_pos hset]
      exact ⟨false, _, rfl, hfail fd, rfl, rfl, fun _ => ⟨rfl, rfl⟩, by simp⟩
    · rw [if_neg hset]
      obtain ⟨hnonneg, hfresh⟩ := host.fresh hopen
      have hcount := h.count
      have hnew := h.toReady.moveToRunning hs hk (by omega)
        (Filter.restart_wf (h.records s) fd (host.time st.starts.length)) hnonneg hfresh true
      obtain ⟨fds, secs, hupdate, hcons⟩ := updatePollFds_spec hnew
      refine ⟨true, _, congrArg (Except.map _) hupdate, hcons, rfl, rfl, by simp, fun _ => ⟨?_, rfl⟩⟩
      show s :: st.running.erase s = _
      rw [List.erase_of_not_mem hs]

/-- **`stop_filter`** on a filter that runs. -/
theorem stopFilter_spec (h : st.Consistent) (hs : s ∈ st.running) :
    ∃ st', stopFilter st s = .ok st' ∧ st'.Consistent ∧ st'.next = st.next ∧ st'.starts = st.starts ∧
      st'.running = st.running.erase s ∧ st'.waiting = st.waiting := by
  obtain ⟨fds, secs, hupdate, hcons⟩ :=
    updatePollFds_spec (h.toReady.dropRunning hs (f := { st.bufs s with fd := -1 }) (h.records s))
  exact ⟨_, hupdate, hcons, rfl, rfl, rfl, rfl⟩

/-! ### Waiting filters are tried again -/

def Sched.Starved (st : Sched) : Prop := st.waiting ≠ [] ∧ st.running = []

def Sched.FailedLast (st : Sched) : Prop := ∃ a ∈ st.starts.head?, a.nRunning = 0 ∧ a.ok = false

/-- What every step keeps. -/
structure Sched.Inv (st : Sched) : Prop extends st.Consistent where
  starved_iff : st.Starved ↔ st.FailedLast

theorem failedLast_cons {n : ℤ} {ok : Bool} {starts : List Start} (h : st.starts = ⟨n, ok⟩ :: starts) :
    st.FailedLast ↔ n = 0 ∧ ok = false := by
  unfold Sched.FailedLast
  rw [h]
  simp

theorem Sched.Ready.nRunning_eq_zero (h : st.Ready) : st.nRunning = 0 ↔ st.running = [] := by
  rw [h.count, Int.natCast_eq_zero, List.length_eq_zero_iff]

theorem init_inv : Sched.init.Inv where
  count := rfl
  bound := Nat.zero_le _
  nodup := List.nodup_nil
  known s hs := by cases hs
  opened := List.Perm.nil
  distinct := List.nodup_nil
  real fd hfd := by cases hfd
  records _ := setupFilter_wf 0 (-1) false
  pollLength := List.length_replicate
  pollBufsLength := List.length_replicate
  polled := rfl
  polledBufs := rfl
  starved_iff := by simp [Sched.Starved, Sched.FailedLast, Sched.init]

theorem Sched.Inv.withServices (h : st.Inv) (services : List Service) :
    Sched.Inv { st with services := services } := { h with }

theorem Sched.Inv.setBuf (h : st.Inv) (hfd : f.fd = (st.bufs s).fd) (hf : f.sections.Wf) : (st.setBuf s f).Inv :=
  { h.toConsistent.setBuf (fun _ => hfd) hf with starved_iff := h.starved_iff }

/-- **`add_filter`** leaves the running filters running. -/
theorem addFilter_spec (h : st.Inv) (hf : f.sections.Wf) :
    ∃ st', addFilter host st f = .ok st' ∧ st'.Inv ∧ ∀ s ∈ st.running, s ∈ st'.running := by
  have hunknown : ∀ l, l ⊆ st.running ++ st.waiting → st.next ∉ l := fun l hl hmem =>
    Nat.lt_irrefl _ (h.known _ (hl hmem))
  have hs : st.next ∉ st.running := hunknown _ (List.subset_append_left _ _)
  have hw : st.next ∉ st.waiting := hunknown _ (List.subset_append_right _ _)
  have hcons : Sched.Consistent { st.setBuf st.next f with next := st.next + 1 } :=
    { h.toConsistent.setBuf (fun hr => absurd hr hs) hf with
      known := fun s hs => Nat.lt_succ_of_lt (h.known s hs) }
  obtain ⟨ok, st', hrun, hcons', hnext, hstarts, hfail, hok⟩ :=
    startFilter_spec host hcons (s := st.next) hs (Nat.lt_succ_self _)
  have hlast := failedLast_cons hstarts
  unfold addFilter
  rw [hrun]
  cases ok with
  | false =>
    obtain ⟨hrunning, hwaiting⟩ := hfail rfl
    have hrunning : st'.running = st.running := hrunning
    have hwaiting : st'.waiting = st.waiting := hwaiting
    have hzero := h.nRunning_eq_zero
    refine ⟨_, rfl, { hcons' with nodup := ?_, known := ?_, starved_iff := ?_ }, fun s hs => ?_⟩
    · show (st'.running ++ (st'.waiting ++ [st.next])).Nodup
      rw [hrunning, hwaiting, ← List.append_assoc]
      refine h.nodup.append (List.nodup_singleton _) ?_
      rw [List.disjoint_singleton]
      exact hunknown _ (List.Subset.refl _)
    · intro s hs
      show s < st'.next
      rw [hnext]
      have hs : s ∈ st'.running ++ (st'.waiting ++ [st.next]) := hs
      rw [hrunning, hwaiting, ← List.append_assoc, List.mem_append, List.mem_singleton] at hs
      rcases hs with hs | rfl
      · exact Nat.lt_succ_of_lt (h.known s hs)
      · exact Nat.lt_succ_self _
    · have hne : st'.waiting ++ [st.next] ≠ [] := by simp
      show (st'.waiting ++ [st.next] ≠ [] ∧ st'.running = []) ↔ st'.FailedLast
      rw [hlast, hrunning, and_iff_right hne, and_iff_left rfl]
      exact hzero.symm
    · show s ∈ st'.running
      rw [hrunning]
      exact hs
  | true =>
    obtain ⟨hrunning, -⟩ := hok rfl
    refine ⟨st', rfl, { hcons' with starved_iff := ?_ }, fun s hs => ?_⟩
    · rw [hlast, Sched.Starved, hrunning]
      simp
    · rw [hrunning]
      exact List.mem_cons_of_mem _ hs

/-- **The loop of `remove_filter`** stops at the first filter that cannot be started. -/
theorem startWaiting_spec (fuel : ℕ) (h : st.Consistent) (hlast : ¬ st.FailedLast) (hfuel : st.waiting.length < fuel) :
    ∃ st', startWaiting host fuel st = .ok st' ∧ st'.Inv := by
  induction fuel generalizing st with
  | zero => exact absurd hfuel (Nat.not_lt_zero _)
  | succ fuel ih =>
    unfold startWaiting
    cases hwaiting : st.waiting with
    | nil => exact ⟨st, rfl, { h with starved_iff := iff_of_false (fun hs => hs.1 hwaiting) hlast }⟩
    | cons s rest =>
      have hmem : s ∈ st.waiting := by
        rw [hwaiting]
        exact List.mem_cons_self
      have hs : s ∉ st.running := fun hr => List.disjoint_of_nodup_append h.nodup hr hmem
      obtain ⟨ok, st', hrun, hcons', -, hstarts, hfail, hok⟩ :=
        startFilter_spec host h hs (h.known s (List.mem_append_right _ hmem))
      have hlast' := failedLast_cons hstarts
      dsimp only
      rw [hrun]
      cases ok with
      | false =>
        obtain ⟨hrunning', hwaiting'⟩ := hfail rfl
        refine ⟨st', rfl, { hcons' with starved_iff := ?_ }⟩
        rw [hlast', Sched.Starved, hrunning', hwaiting', hwaiting, and_iff_right (List.cons_ne_nil _ _),
          and_iff_left rfl]
        exact h.nRunning_eq_zero.symm
      | true =>
        obtain ⟨-, hwaiting'⟩ := hok rfl
        rw [hwaiting, List.erase_cons_head] at hwaiting'
        refine ih hcons' (fun hl => ?_) ?_
        · exact absurd (hlast'.mp hl).2 (by decide)
        · rw [hwaiting']
          rw [hwaiting, List.length_cons] at hfuel
          omega

/-- **`remove_filter`** of a filter that runs. -/
theorem removeFilter_spec (h : st.Inv) (hs : s ∈ st.running) : ∃ st', removeFilter host st s = .ok st' ∧ st'.Inv := by
  obtain ⟨st₁, hstop, hcons, -, hstarts, -, -⟩ := stopFilter_spec h.toConsistent hs
  have hlast : ¬ st₁.FailedLast := by
    unfold Sched.FailedLast
    rw [hstarts]
    intro hlast
    rw [(h.starved_iff.mpr hlast).2] at hs
    cases hs
  unfold removeFilter
  rw [hstop]
  exact startWaiting_spec host _ hcons hlast (Nat.lt_succ_self _)

theorem setup_wf (longTimeout : Bool) (pid tid tidExt : ℤ) (runOnce segmented : Bool) (timeout : ℤ) :
    (Filter.setup longTimeout pid tid tidExt runOnce segmented timeout).sections.Wf :=
  setupFilter_wf tid tidExt segmented

/-- **`parse_pat`** starts filters, and stops none. -/
theorem parsePat_spec (sectionLength : ℕ) (h : st.Inv) (buf : List UInt8) :
    ∃ st', parsePat host st buf sectionLength = .ok st' ∧ st'.Inv ∧ ∀ s ∈ st.running, s ∈ st'.running := by
  induction sectionLength using Nat.strong_induction_on generalizing st buf with
  | _ n ih =>
    unfold parsePat
    by_cases hn : n = 0
    · rw [if_pos hn]
      exact ⟨st, rfl, h, fun _ hs => hs⟩
    rw [if_neg hn]
    have hrec := fun {st : Sched} (h : st.Inv) => ih (n - 4) (by omega) h (buf.drop 4)
    dsimp only
    split_ifs with hnit hnew
    · exact hrec h
    · -- a new filter for the map of the service
      obtain ⟨st₁, hadd, h₁, hkeep₁⟩ := addFilter_spec host (h.withServices _)
        (setup_wf host.longTimeout _ 0x02 _ true false 5)
      obtain ⟨st', hrun, h', hkeep⟩ := hrec h₁
      rw [hadd]
      exact ⟨st', hrun, h', fun s hs => hkeep s (hkeep₁ s hs)⟩
    · exact hrec (h.withServices _)

/-- **`read_sections`** on a filter that runs leaves it running. -/
theorem readSections_spec (h : st.Inv) (hs : s ∈ st.running) (data : Option (List UInt8)) :
    ∃ done st', readSections host st s data = .ok (done, st') ∧ st'.Inv ∧ s ∈ st'.running := by
  unfold readSections
  dsimp only
  split_ifs with hdone
  · exact ⟨true, st, rfl, h, hs⟩
  cases data with
  | none => exact ⟨false, st, rfl, h, hs⟩
  | some data =>
    dsimp only
    obtain ⟨buf, hbuf⟩ : ∃ buf, buf = data.take 1024 ++ (st.bufs s).buf.drop (data.take 1024).length := ⟨_, rfl⟩
    rw [← hbuf]
    have h₁ : (st.setBuf s { st.bufs s with buf := buf }).Inv := h.setBuf rfl (h.records s)
    split_ifs with hshort
    · exact ⟨false, _, rfl, h₁, hs⟩
    obtain ⟨ret, parsed, sections, hparse, hwf, -, -⟩ := parseSection_wf (h.records s) buf
    rw [hparse]
    have h₂ : ((st.setBuf s { st.bufs s with buf := buf }).setBuf s
        { st.bufs s with buf := buf, sections := sections }).Inv :=
      h₁.setBuf (by simp) hwf
    cases parsed with
    | none => exact ⟨_, _, rfl, h₂, hs⟩
    | some p =>
      dsimp only
      unfold parseBody
      split_ifs with hpat
      · obtain ⟨st', hrun, h', hkeep⟩ := parsePat_spec host p.sectionLength h₂ p.buf
        rw [hrun]
        exact ⟨_, st', rfl, h', hkeep s hs⟩
      · exact ⟨_, _, rfl, h₂.withServices _, hs⟩

theorem polledBuf (h : st.Consistent) (hi : (i : ℤ) < st.nRunning) :
    ∃ s ∈ st.running, st.pollSectionBufs.getD i none = some s := by
  have hcount := h.count
  have hlt : i < st.running.length := by omega
  refine ⟨st.running[i], List.getElem_mem hlt, ?_⟩
  have hget : (st.pollSectionBufs.take st.running.length)[i]? = (st.running.map some)[i]? := by
    rw [h.polledBufs]
  rw [List.getElem?_take_of_lt hlt, List.getElem?_map, List.getElem?_eq_getElem hlt] at hget
  rw [List.getD_eq_getElem?_getD, hget]
  rfl

/-- **The loop of `read_filters`** finds a running filter in every entry that it reads, and ends. -/
theorem readLoop_spec (p : Poll) (fuel : ℕ) (h : st.Inv) (hi : i ≤ maxRunning) (hfuel : maxRunning < fuel + i) :
    ∃ st', readLoop host p fuel i st = .ok st' ∧ st'.Inv := by
  induction fuel generalizing i st with
  | zero => omega
  | succ fuel ih =>
    unfold readLoop
    by_cases hlt : (i : ℤ) < st.nRunning
    · rw [if_pos hlt]
      have hcount := h.count
      have hbound := h.bound
      obtain ⟨s, hs, hget⟩ := polledBuf h.toConsistent hlt
      have hread : ∃ done st₁, (if (st.pollFds.getD i ⟨-1, false⟩).revents = true then
          readSections host st s (p.data i) else .ok (false, st)) = .ok (done, st₁) ∧ st₁.Inv ∧ s ∈ st₁.running := by
        split_ifs
        · exact readSections_spec host h hs (p.data i)
        · exact ⟨false, st, rfl, h, hs⟩
      obtain ⟨done, st₁, hrun, h₁, hs₁⟩ := hread
      have hnext := fun {st : Sched} (h : st.Inv) => ih (i := i + 1) h (by omega) (by omega)
      rw [hget]
      dsimp only
      rw [hrun]
      dsimp only
      split_ifs with hremove
      · obtain ⟨st₂, hrun₂, h₂⟩ := removeFilter_spec host h₁ hs₁
        rw [hrun₂]
        exact hnext h₂
      · exact hnext h₁
    · rw [if_neg hlt]
      exact ⟨st, rfl, h⟩

/-- **`read_filters`**, with what `poll` leaves in its table. -/
theorem readFilters_spec (h : st.Inv) (p : Poll) : ∃ st', readFilters host st p = .ok st' ∧ st'.Inv := by
  refine readLoop_spec host p _ { h with pollLength := ?_, polled := ?_ } (Nat.zero_le _) (Nat.lt_succ_self _)
  · rw [List.length_mapIdx, h.pollLength]
  · rw [← h.polled]
    refine List.ext_getElem? fun i => ?_
    by_cases hi : i < st.running.length
    · rw [List.getElem?_map, List.getElem?_map, List.getElem?_take_of_lt hi, List.getElem?_take_of_lt hi,
        List.getElem?_mapIdx, Option.map_map]
      refine congrArg (fun f => Option.map f st.pollFds[i]?) (funext fun q => ?_)
      show PollFd.fd (if (i : ℤ) < st.nRunning then _ else q) = q.fd
      split_ifs <;> rfl
    · rw [List.getElem?_map, List.getElem?_map, List.getElem?_take_eq_none (not_lt.mp hi),
        List.getElem?_take_eq_none (not_lt.mp hi)]

/-! ### Runs -/

def run (host : Host) (st : Sched) (ops : List Op) : Except Fault Sched := ops.foldlM (step host) st

theorem step_spec (h : st.Inv) (op : Op) : ∃ st', step host st op = .ok st' ∧ st'.Inv := by
  cases op with
  | add pid tid tidExt runOnce segmented timeout =>
    obtain ⟨st', hrun, h', -⟩ := addFilter_spec host h (setup_wf host.longTimeout pid tid tidExt runOnce segmented timeout)
    exact ⟨st', hrun, h'⟩
  | remove k =>
    rw [step]
    cases hget : st.running[k]? with
    | none => exact ⟨st, rfl, h⟩
    | some s => exact removeFilter_spec host h (List.mem_of_getElem? hget)
  | read p => exact readFilters_spec host h p
  | tune services => exact ⟨_, rfl, h.withServices services⟩

theorem run_spec (ops : List Op) (h : st.Inv) : ∃ st', run host st ops = .ok st' ∧ st'.Inv := by
  induction ops generalizing st with
  | nil => exact ⟨st, rfl, h⟩
  | cons op ops ih =>
    obtain ⟨st₁, hstep, h₁⟩ := step_spec host h op
    obtain ⟨st', hrun, h'⟩ := ih h₁
    refine ⟨st', ?_, h'⟩
    unfold run
    rw [List.foldlM_cons, hstep]
    exact hrun

/-- **The scheduler is consistent along every run**: no `fatal` is reached, `n_running` counts the running filters, at
most `MAX_RUNNING`, the tables hold them with their open descriptors, and no filter is twice in the lists. -/
theorem run_consistent (host : Host) (ops : List Op) :
    ∃ st, run host Sched.init ops = .ok st ∧ st.Consistent := by
  obtain ⟨st, hrun, h⟩ := run_spec host ops init_inv
  exact ⟨st, hrun, h.toConsistent⟩

/-- **When filters wait for nothing**: in every state that is reached, if a filter waits then one runs,
exactly if the latest start was not one that failed while none ran. -/
theorem run_starved_iff (host : Host) (ops : List Op) :
    ∃ st, run host Sched.init ops = .ok st ∧
      ((st.waiting ≠ [] → st.running ≠ []) ↔ ∀ a ∈ st.starts.head?, a.nRunning = 0 → a.ok = true) := by
  obtain ⟨st, hrun, h⟩ := run_spec host ops init_inv
  refine ⟨st, hrun, ?_⟩
  have hiff := not_congr h.starved_iff
  unfold Sched.Starved Sched.FailedLast at hiff
  push Not at hiff
  simpa using hiff

/-- A device with the descriptors 3 and 4. -/
def twoDemuxHost : Host where
  longTimeout := false
  openDemux _ opened := if 3 ∈ opened then if 4 ∈ opened then none else some 4 else some 3
  fresh h := by
    split_ifs at h with h₃ h₄
    · exact Option.some.inj h ▸ ⟨by decide, h₄⟩
    · exact Option.some.inj h ▸ ⟨by decide, h₃⟩
  setFilter _ _ := true
  time _ := 0
  parseTable _ services := services

/-- Of three filters the third waits, and is started when a running one is removed. -/
example : let ops := [.add 0 0 (-1) true false 5, .add 0x11 0x42 1 true false 5, .add 0x10 0x40 (-1) true true 15]
    let seen := fun st : Sched => (st.running, st.waiting, st.nRunning, st.opened)
    (run twoDemuxHost Sched.init ops).map seen = .ok ([1, 0], [2], 2, [4, 3]) ∧
      (run twoDemuxHost Sched.init (ops ++ [.remove 0])).map seen = .ok ([2, 0], [], 2, [4, 3]) :=
  ⟨rfl, rfl⟩

def closedHost : Host where
  longTimeout := false
  openDemux _ _ := none
  fresh h := by cases h
  setFilter _ _ := false
  time _ := 0
  parseTable _ services := services

/-- The first filter cannot be started, and waits for ever. -/
theorem not_forall_running_of_waiting :
    ¬ ∀ (host : Host) (ops : List Op) (p : Poll) (st : Sched), run host Sched.init (ops ++ [.read p]) = .ok st →
      st.waiting ≠ [] → st.running ≠ [] := by
  intro hall
  exact hall closedHost [.add 0 0 (-1) true false 5] ⟨fun _ => false, fun _ => none, fun _ => 0⟩ _ rfl
    (List.cons_ne_nil 0 []) rfl

end BgtDvb.Dvbscan
