import RecordStore.Command.Run
import RecordStore.Proofs.Availability
import RecordStore.Proofs.Bootstrap
import RecordStore.Proofs.Cursor

/-!
# One record through a lease of its own

A command that puts one record has the pool to itself: it leases the file on offer, writes, unlocks
and closes. What it leaves is the record at the end of that file, or nothing.
-/

namespace RecordStore

open Record

/-! ## A writer that has met no failure -/

namespace Writer

variable {file : FileId} {depth : Nat} {sync : Bool} {d : Disk} {c : Content}

def started (file : FileId) (depth : Nat) (sync : Bool) : Writer :=
  { file, depth, syncOnFlush := sync }

theorem settle_started (d : Disk) :
    (started file depth sync).settle false d = (started file depth sync, d) := by
  rfl

theorem settle_request (hc : d.content? file = some c) (r : Request) :
    Writer.settle false d { started file depth sync with queue := [r] } =
      (started file depth sync, d.setObject file (.regular (c.write r.offset r.bytes))) := by
  have hobject := Disk.content?_eq_some.1 hc
  simp [settle, started, recordUnless, record?, drain, drainQueue, Disk.write, hobject, settleEnd,
    finish?]

theorem settle_close (hc : d.content? file = some c) :
    Writer.settle false d { started file depth sync with closed := true } =
      ({ started file depth sync with closed := true, finished := true }, d) := by
  have hsync : d.sync file none = .ok () := by
    simp [Disk.sync, Disk.content?_eq_some.1 hc]
  simp [settle, started, recordUnless, record?, drain, drainQueue, hsync, settleEnd, finish?]

end Writer

/-! ## A segment that writes one record -/

namespace Segment

variable {g : Segment} {pool i base next : Nat} {file : FileId} {config : Config} {d : Disk}
  {c : Content}

/-- A lease whose cursor has come to `next`, with all its records on disk. -/
def leased (pool i base next : Nat) (file : FileId) (config : Config) : Segment :=
  { pool, fileIndex := i, base, next
    writer := .started file config.writeQueueDepth.toNat config.syncOnFlush }

def flushed (pool i base next : Nat) (file : FileId) (config : Config) : Segment :=
  let g := leased pool i base next file config
  { g with phase := .drained, writer := { g.writer with closed := true, finished := true } }

def accepted (pool i base next : Nat) (file : FileId) (config : Config) (data : Bytes) : Segment :=
  { leased pool i base next file config with pending := some (.ofRecord next data) }

def closing (pool i base next : Nat) (file : FileId) (config : Config) : Segment :=
  let g := leased pool i base next file config
  { g with phase := .flushing, writer := { g.writer with closed := true } }

theorem verdict_leased (hi : i < Address.maxFileIndex) (hroom : next ≤ Address.offsetMask)
    (data : Bytes) :
    (leased pool i base next file config).Verdict False data
      ((leased pool i base next file config).accept data)
      (accepted pool i base next file config data) :=
  verdict_accept hi hroom (by simp [leased, Writer.started]) data

theorem settle_of_enqueue {held : Bool} {g h : Segment} {d d' d'' : Disk} {v w : Writer}
    (hfirst : g.writer.settle held d = (v, d'))
    (henqueue : ({ g with writer := v } : Segment).enqueue? = some h)
    (hsecond : h.writer.settle held d' = (w, d'')) :
    g.settle held d = ({ h with writer := w }, d'') := by
  unfold settle
  rw [hfirst]
  dsimp only
  rw [henqueue]
  dsimp only
  rw [hsecond]

theorem settle_accepted (hdepth : 0 < config.writeQueueDepth.toNat)
    (hc : d.content? file = some c) (data : Bytes) :
    (accepted pool i base next file config data).settle false d =
      (leased pool i base (next + encodedLength data.length) file config,
        d.setObject file (.regular (c.write next (encode data)))) := by
  have henqueue : (accepted pool i base next file config data).enqueue? =
      some { leased pool i base (next + encodedLength data.length) file config with
        writer := { Writer.started file config.writeQueueDepth.toNat config.syncOnFlush with
          queue := [.ofRecord next data] } } := by
    simp [enqueue?, accepted, leased, Writer.started, hdepth, Request.ofRecord]
  have hidle : (accepted pool i base next file config data).writer.settle false d =
      (.started file config.writeQueueDepth.toNat config.syncOnFlush, d) := Writer.settle_started d
  rw [settle_of_enqueue hidle henqueue (Writer.settle_request hc _)]
  rfl

theorem settle_closing (hc : d.content? file = some c) :
    (closing pool i base next file config).settle false d =
      ({ flushed pool i base next file config with phase := .flushing }, d) := by
  unfold settle closing leased
  dsimp only
  rw [Writer.settle_close hc]
  rfl

end Segment

/-! ## The store of a command -/

namespace Store

variable {s t : Store} {id : PoolId} {k : SegmentId} {locks : List FileId} {n : Nat}

/-- The pool is open and has its lock besides those of others, and no failure is held back. -/
structure Serving (s : Store) (id : PoolId) (locks : List FileId) (owners : Nat) : Prop where
  prompt : s.failuresHeld = false
  pool : ∃ p, s.pools[id]? = some p ∧ p.isOpen = true ∧ p.owners = owners ∧
    s.locks = p.lockFile :: locks

namespace Serving

theorem congr (h : s.Serving id locks n) (hpools : t.pools = s.pools) (hlocks : t.locks = s.locks)
    (hprompt : t.failuresHeld = s.failuresHeld) : t.Serving id locks n where
  prompt := hprompt.trans h.prompt
  pool := by
    rw [hpools, hlocks]
    exact h.pool

theorem settlePool (h : s.Serving id locks n) : (s.settlePool id).Serving id locks n := by
  obtain ⟨hprompt, p, hp, hopen, howners, hlocks⟩ := h
  have htended := Pool.tended_settle s.disk p
  rw [settlePool_of_pool hp]
  exact ⟨hprompt, _, pools_setPool_self hp _, htended.isOpen.trans hopen,
    htended.owners.trans howners, hlocks.trans (by rw [htended.lockFile])⟩

theorem dropOwner (h : s.Serving id locks (n + 2)) :
    (s.dropOwner id).Serving id locks (n + 1) := by
  obtain ⟨hprompt, p, hp, hopen, howners, hlocks⟩ := h
  have hdrop : s.dropOwner id = s.setPool id { p with owners := p.owners - 1 } := by
    unfold Store.dropOwner
    rw [hp]
    dsimp only
    rw [if_neg (by omega)]
  rw [hdrop]
  exact ⟨hprompt, _, pools_setPool_self hp _, hopen, by simp [howners], hlocks⟩

theorem release (h : s.Serving id locks n) {g : Segment} (hpool : g.pool = id) :
    (s.release k g).Serving id locks n := by
  obtain ⟨hprompt, p, hp, hopen, howners, hlocks⟩ := h
  refine ⟨hprompt, p.giveBack g.fileIndex, ?_, hopen, howners, hlocks⟩
  rw [pools_release, hpool, List.getElem?_modify_eq, hp]
  rfl

theorem readRecord (h : s.Serving id locks n) (a : Address) :
    (s.readRecord id a).2.Serving id locks n := by
  obtain ⟨hprompt, p, hp, hopen, howners, hlocks⟩ := h
  have hread : (s.readRecord id a).2 = s.setPool id (p.read s.disk a []).2.2 := by
    simp [Store.readRecord, Store.read, hp]
  rw [hread]
  refine ⟨hprompt, _, pools_setPool_self hp _, ?_⟩
  rcases readBetween_pool s.disk s.disk p a [] with hsame | ⟨slot, position, -, hmoved⟩
  · rw [Pool.read, hsame]
    exact ⟨hopen, howners, hlocks⟩
  · rw [Pool.read, hmoved]
    exact ⟨hopen, howners, hlocks⟩

theorem closePool (h : s.Serving id locks 1) :
    (s.closePool id).disk = s.disk ∧ (s.closePool id).locks = locks ∧
      (s.closePool id).failuresHeld = false := by
  obtain ⟨hprompt, p, hp, hopen, howners, hlocks⟩ := h
  have hclosed := pools_setPool_self hp p.close
  have howners' : p.close.owners = 1 := howners
  have hclose : s.closePool id =
      { (s.setPool id p.close).setPool id { p.close with owners := p.close.owners - 1 } with
        locks := s.locks.erase p.close.lockFile } := by
    unfold Store.closePool Store.dropOwner
    rw [hp]
    dsimp only
    rw [if_pos hopen, hclosed]
    dsimp only
    rw [if_pos howners']
    rfl
  rw [hclose]
  exact ⟨rfl, by simp [hlocks, Pool.close], hprompt⟩

end Serving

/-! ## The steps of the command -/

variable {p : Pool} {pool i base next : Nat} {file : FileId} {config : Config} {c : Content}
  {data : Bytes}

open Segment

theorem lockWithin_of_offer (hs : s.Serving id locks n) (hp : s.pools[id]? = some p)
    (hoffer : p.selected = some i) (hfile : p.files[i]? = some file) :
    ∃ r : Pool, r.config = p.config ∧ r.slots[i]?.elim 0 Slot.file = file ∧ r.isOpen = true ∧
      r.owners = n ∧ s.locks = r.lockFile :: locks ∧
      s.lockWithin id =
        ((s.startLease id r i none).1, (s.startLease id r i none).2.settlePool id) := by
  obtain ⟨-, q, hq, hopen, howners, hlocks⟩ := hs
  obtain rfl := Option.some.inj (hp.symm.trans hq)
  generalize hr : Pool.settle s.disk { p with selected := none, taken := i :: p.taken } = r
  have htended : Pool.Tended { p with selected := none, taken := i :: p.taken } r :=
    hr ▸ Pool.tended_settle s.disk _
  refine ⟨r, htended.config, ?_, htended.isOpen.trans hopen, htended.owners.trans howners, ?_, ?_⟩
  · have hfiles : r.files = p.files := htended.files
    rw [← hfiles, Pool.files, List.getElem?_map] at hfile
    obtain ⟨slot, hslot, rfl⟩ := Option.map_eq_some_iff.1 hfile
    rw [hslot]
    rfl
  · rw [htended.lockFile]
    exact hlocks
  · rw [lockWithin, lock?_of_offer hp hopen hoffer hr]
    rfl

theorem lockWithin_of_room (hs : s.Serving id locks 1) (hp : s.pools[id]? = some p)
    (hoffer : p.selected = some i) (hfile : p.files[i]? = some file)
    (hi : i < Address.maxFileIndex) (hroom : s.disk.size file ≤ Address.offsetMask) :
    ∃ t, s.lockWithin id = (.ok s.segments.length, t) ∧ t.disk = s.disk ∧
      t.Serving id locks 2 ∧
      t.segments = s.segments ++
        [leased id i (s.disk.size file) (s.disk.size file) file p.config] := by
  obtain ⟨r, hconfig, hslot, hopen, howners, hlocks, hlock⟩ :=
    lockWithin_of_offer hs hp hoffer hfile
  obtain ⟨g, hg, hlease⟩ := startLease_of_room s id (r := r) hi (hslot.symm ▸ hroom)
  obtain ⟨-, -, rfl⟩ := Segment.start_ok hg
  rw [hslot, hconfig] at hlease
  have hserving : (s.startLease id r i none).2.Serving id locks 2 := by
    rw [hlease]
    exact ⟨hs.prompt, _, pools_setPool_self hp _, hopen, congrArg (· + 1) howners, hlocks⟩
  refine ⟨_, ?_, ?_, hserving.settlePool, ?_⟩
  · rw [hlock, hlease]
  · rw [disk_settlePool, hlease]
    rfl
  · rw [segments_settlePool, hlease]
    rfl

theorem lockWithin_too_large (hs : s.Serving id locks 1) (hp : s.pools[id]? = some p)
    (hoffer : p.selected = some i) (hfile : p.files[i]? = some file)
    (hi : i < Address.maxFileIndex) (hlarge : Address.offsetMask < s.disk.size file) :
    ∃ t, s.lockWithin id =
        (.error (.invalidArgument (.address (.offsetTooLarge (s.disk.size file)))), t) ∧
      t.disk = s.disk ∧ t.Serving id locks 1 := by
  obtain ⟨r, -, hslot, hopen, howners, hlocks, hlock⟩ := lockWithin_of_offer hs hp hoffer hfile
  have hrefused := startLease_too_large s id (r := r) hi (hslot.symm ▸ hlarge)
  rw [hslot] at hrefused
  have hserving : (s.startLease id r i none).2.Serving id locks 1 := by
    rw [hrefused]
    exact ⟨hs.prompt, _, pools_setPool_self hp _, hopen, howners, hlocks⟩
  refine ⟨_, ?_, ?_, hserving.settlePool⟩
  · rw [hlock, hrefused]
  · rw [disk_settlePool, hrefused]
    rfl

theorem write_leased (hs : s.failuresHeld = false)
    (hk : s.segments[k]? = some (leased pool i base next file config))
    (hdepth : 0 < config.writeQueueDepth.toNat) (hc : s.disk.content? file = some c)
    (hi : i < Address.maxFileIndex) (hfits : (leased pool i base next file config).Fits data) :
    s.write k data = (some (.ok (Address.ofParts i next)), { s with
      segments := s.segments.set k
        (leased pool i base (next + encodedLength data.length) file config)
      disk := s.disk.setObject file (.regular (c.write next (encode data))) }) := by
  have hroom : next ≤ Address.offsetMask := Nat.le_trans (Nat.le_add_right _ _) hfits.2
  have haccept := (verdict_leased hi hroom data).succeeds hfits rfl not_false
  unfold write
  rw [hk]
  dsimp only
  rw [haccept, finishWrite_of_ok (h := accepted pool i base next file config data) hs hk rfl rfl,
    settle_accepted hdepth hc]
  rfl

theorem write_refused (hk : s.segments[k]? = some (leased pool i base next file config))
    (hi : i < Address.maxFileIndex) (hroom : next ≤ Address.offsetMask)
    (hfits : ¬ (leased pool i base next file config).Fits data) :
    ∃ e, s.write k data = (some (.error e), s) := by
  obtain ⟨refusal, hrefused⟩ := (verdict_leased hi hroom data).invalid.2 hfits
  refine ⟨.invalidArgument refusal, ?_⟩
  unfold write
  rw [hk]
  dsimp only
  rw [hrefused]
  rfl

theorem unlock_leased (hs : s.Serving id locks 2)
    (hk : s.segments[k]? = some (leased id i base next file config))
    (hc : s.disk.content? file = some c) :
    ∃ t, s.unlock k = (some (.ok ()), t) ∧ t.disk = s.disk ∧ t.Serving id locks 1 ∧
      ∃ g, t.segments[k]? = some g ∧ g.writer.failure = none := by
  have hstart : s.startFlush k (leased id i base next file config) = .ok
      (s.install k (leased id i base next file config)
        { flushed id i base next file config with phase := .flushing } s.disk) := by
    rw [startFlush_of_ok (h := closing id i base next file config) hs.prompt hk rfl,
      settle_closing hc]
  have hdrained : ({ flushed id i base next file config with phase := .flushing } :
      Segment).endFlush? = some (flushed id i base next file config) := by
    rfl
  have hflush : s.flush k = (some (.ok ()), s.install k (leased id i base next file config)
      (flushed id i base next file config) s.disk) := by
    unfold flush
    rw [hk]
    dsimp only
    rw [hstart]
    dsimp only
    rw [letGoIf_of_prompt (by rw [failuresHeld_install, hs.prompt]), endFlush?_install hk, hdrained]
    rfl
  have hserving : (s.install k (leased id i base next file config)
      (flushed id i base next file config) s.disk).Serving id locks 1 :=
    hs.dropOwner.congr rfl rfl rfl
  have hthere : (s.install k (leased id i base next file config)
      (flushed id i base next file config) s.disk).segments[k]? =
        some (flushed id i base next file config) := by
    rw [segments_install, List.getElem?_set_self (List.getElem?_eq_some_iff.1 hk).1]
  refine ⟨_, ?_, ?_, (hserving.release (k := k) (g := flushed id i base next file config)
    rfl).settlePool, { flushed id i base next file config with released := true }, ?_, rfl⟩
  · unfold unlock
    rw [hk]
    dsimp only
    rw [if_neg (by simp [leased]), hflush]
    dsimp only
    unfold giveBack
    rw [hthere]
    rfl
  · rw [disk_settlePool, disk_release, disk_install]
  · rw [segments_settlePool, segments_release,
      List.getElem?_set_self (List.getElem?_eq_some_iff.1 hthere).1]

end Store

/-! ## A record and its room -/

/-- A record of this payload can stand behind `size` bytes. -/
def Record.Fits (size : Nat) (payload : Bytes) : Prop :=
  payload.length ≤ maxLength ∧ size + encodedLength payload.length ≤ Address.offsetMask

namespace Command

open Store Segment

variable {s : Store} {id : PoolId} {locks : List FileId} {p : Pool} {i : Nat} {file : FileId}
  {c : Content} {payload : Bytes}

/-- A record that fits goes to the end of the file on offer. -/
theorem putRecord_of_fits (hs : s.Serving id locks 1) (hp : s.pools[id]? = some p)
    (hoffer : p.selected = some i) (hfile : p.files[i]? = some file)
    (hi : i < Address.maxFileIndex) (hvalid : p.config.Valid)
    (hc : s.disk.content? file = some c) (hfits : Fits c.size payload) :
    ∃ t, putRecord s id payload = (.ok (.ofParts i c.size), [], t) ∧
      t.disk = s.disk.setObject file (.regular (c.write c.size (encode payload))) ∧
      t.Serving id locks 1 := by
  have hsize : s.disk.size file = c.size := by simp [Disk.size, hc]
  have hroom : c.size ≤ Address.offsetMask := Nat.le_trans (Nat.le_add_right _ _) hfits.2
  obtain ⟨t, hlock, hdisk, ht, hsegments⟩ :=
    lockWithin_of_room hs hp hoffer hfile hi (hsize ▸ hroom)
  rw [hsize] at hsegments
  have hk : t.segments[s.segments.length]? =
      some (leased id i c.size c.size file p.config) := by
    simp [hsegments]
  have hwrite := write_leased ht.prompt hk (p.config.valid_iff.1 hvalid).2.1
    (hdisk.symm ▸ hc) hi hfits
  generalize hu : { t with
    segments := t.segments.set s.segments.length
      (leased id i c.size (c.size + encodedLength payload.length) file p.config)
    disk := t.disk.setObject file (.regular (c.write c.size (encode payload))) } = u at hwrite
  have hserving : u.Serving id locks 2 := ht.congr (by rw [← hu]) (by rw [← hu]) (by rw [← hu])
  have hk' : u.segments[s.segments.length]? = some
      (leased id i c.size (c.size + encodedLength payload.length) file p.config) := by
    rw [← hu]
    exact List.getElem?_set_self (List.getElem?_eq_some_iff.1 hk).1
  have hdisk' : u.disk =
      s.disk.setObject file (.regular (c.write c.size (encode payload))) := by
    rw [← hu, ← hdisk]
  have hc' : u.disk.content? file = some (c.write c.size (encode payload)) := by
    rw [hdisk', Disk.content?_setObject s.disk file _ file (Disk.content?_lt hc), if_pos rfl]
  obtain ⟨v, hunlock, hsame, hv, g, hg, hsound⟩ := unlock_leased hserving hk' hc'
  refine ⟨v, ?_, hsame.trans hdisk', hv⟩
  unfold putRecord
  rw [hlock]
  dsimp only
  rw [hwrite]
  dsimp only
  rw [hunlock]
  dsimp only
  rw [hg, Option.bind_some, hsound]
  rfl

theorem putRecord_of_not_fits (hs : s.Serving id locks 1) (hp : s.pools[id]? = some p)
    (hoffer : p.selected = some i) (hfile : p.files[i]? = some file)
    (hi : i < Address.maxFileIndex) (hc : s.disk.content? file = some c)
    (hfits : ¬ Fits c.size payload) :
    ∃ e t, putRecord s id payload = (.error e, [], t) ∧ t.disk = s.disk ∧
      t.Serving id locks 1 := by
  have hsize : s.disk.size file = c.size := by simp [Disk.size, hc]
  unfold putRecord
  rcases Nat.lt_or_ge Address.offsetMask (s.disk.size file) with hlarge | hroom
  · obtain ⟨t, hlock, hdisk, ht⟩ := lockWithin_too_large hs hp hoffer hfile hi hlarge
    rw [hlock]
    exact ⟨_, t, rfl, hdisk, ht⟩
  · obtain ⟨t, hlock, hdisk, ht, hsegments⟩ := lockWithin_of_room hs hp hoffer hfile hi hroom
    rw [hsize] at hsegments hroom
    have hk : t.segments[s.segments.length]? =
        some (leased id i c.size c.size file p.config) := by
      simp [hsegments]
    obtain ⟨e, hwrite⟩ := write_refused hk hi hroom hfits
    obtain ⟨u, hunlock, hsame, hu, -⟩ := unlock_leased ht hk (hdisk.symm ▸ hc)
    rw [hlock]
    dsimp only
    rw [hwrite]
    dsimp only
    rw [drop, hunlock]
    exact ⟨e, u, rfl, hsame.trans hdisk, hu⟩

end Command

end RecordStore
