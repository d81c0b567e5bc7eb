import RecordStore.Proofs.Arguments
import RecordStore.Proofs.Effect
import RecordStore.Proofs.Texts

/-!
# What was put can be got

In a directory that `makedb` has made, each record that `put` has put is found by every later `get`,
under either spelling of the address that was printed, whatever else was put in between.
-/

namespace RecordStore.Command

open Layout Record

/-! ## Command lines -/

/-- The arguments ask for this action on a directory with this many files. -/
def Asks (args : List String) (path : String) (count : UInt64) (action : Action) : Prop :=
  ∃ verbose, readArguments args = .ok { path := some path, verbose, files := count, action }

theorem named_of_asks {args : List String} {path : String} {count : UInt64} {action : Action}
    (h : Asks args path count action) : path ≠ "" := by
  rintro rfl
  obtain ⟨verbose, hargs⟩ := h
  exact path_of_readArguments hargs rfl

def runAll (s : Store) (commands : List (List String)) : Store :=
  commands.foldl (fun s args => (run s args).2) s

variable {s t u : Store} {args : List String} {path : String} {count : UInt64} {action : Action}
  {config : Config} {files : List FileId}

def prompt (s : Store) : Store := { s with failuresHeld := false }

theorem run_of_asks (h : Asks args path count action) (haction : action ≠ .version) (s : Store) :
    run s args =
      ((runAt (prompt s) path { fileCount := count } action).1,
        { (runAt (prompt s) path { fileCount := count } action).2 with
          failuresHeld := s.failuresHeld }) := by
  obtain ⟨verbose, hargs⟩ := h
  unfold run
  rw [hargs]
  cases action with
  | version => exact absurd rfl haction
  | _ => rfl

/-! ## What a put keeps -/

/-- The files are still there and have only grown, and the lock can be had if it could be had. -/
structure Keeps (path : String) (files : List FileId) (s t : Store) : Prop where
  present : Present t.disk path files
  appends : ∀ f ∈ files, s.disk.Appends t.disk f
  lockable : Lockable s.disk s.locks path → Lockable t.disk t.locks path

theorem appends_of_extends {d d' : Disk} (h : Present d path files) (hextends : d.Extends d') :
    ∀ f ∈ files, d.Appends d' f := by
  intro f hf
  obtain ⟨c, hc⟩ := Option.isSome_iff_exists.1 (h.regular hf)
  exact Disk.appends_of_content? hc (hextends.content_some hc)

theorem keeps_refl (h : Present s.disk path files) : Keeps path files s s :=
  ⟨h, appends_of_extends h (.refl s.disk), id⟩

theorem Keeps.trans (h : Keeps path files s t) (k : Keeps path files t u) :
    Keeps path files s u where
  present := k.present
  appends f hf := (h.appends f hf).trans (k.appends f hf)
  lockable hlock := k.lockable (h.lockable hlock)

theorem appends_setObject {d : Disk} {f : FileId} {c : Content} (hc : d.content? f = some c)
    (bs : Bytes) {g : FileId} (hg : (d.content? g).isSome) :
    d.Appends (d.setObject f (.regular (c.write c.size bs))) g := by
  obtain ⟨c', hc'⟩ := Option.isSome_iff_exists.1 hg
  have hcontent := Disk.content?_setObject d f (c.write c.size bs) g (Disk.content?_lt hc)
  by_cases hsame : f = g
  · subst hsame
    rw [if_pos rfl] at hcontent
    refine ⟨c, _, hc, hcontent, ?_⟩
    rw [Content.bytes_write_size]
    exact List.prefix_append c.bytes bs
  · rw [if_neg hsame, hc'] at hcontent
    exact Disk.appends_of_content? hc' hcontent

theorem openPool_of_not_lockable (config : Config) (h : ¬ Lockable s.disk s.locks path) :
    ∃ e t, s.openPool path config = (.error e, t) ∧ s.disk.Extends t.disk := by
  obtain ⟨answer, t, hopen⟩ : ∃ answer t, s.openPool path config = (answer, t) := ⟨_, _, rfl⟩
  cases answer with
  | error e => exact ⟨e, t, hopen, Pool.openAt_extends (Store.openPool_error hopen).1⟩
  | ok id =>
    exfalso
    have hok : (s.openPool path config).1.isOk := by
      rw [hopen]
      rfl
    obtain ⟨p, hp⟩ := isOk_iff.1 (Store.openPool_isOk.1 hok)
    obtain ⟨-, lockFile, slots, hlock, -⟩ := Pool.openAt_ok
      (show Pool.openAt s.disk s.locks path config = (.ok p, _, _) from Prod.ext hp rfl)
    obtain ⟨hcreate, hfree, -⟩ := acquireLock_ok hlock
    exact h ⟨lockFile, by rw [hcreate], hfree⟩

variable {data : String} {hex : Bool}

/-- The payload has gone to the end of a file, and its address is printed. -/
structure Stored (s : Store) (path : String) (files : List FileId) (payload : Bytes) (a : Address)
    (result : Outcome × Store) : Prop where
  printed : result.1.out = line a.text
  length : payload.length ≤ maxLength
  record : ∃ f, files[a.fileIndex]? = some f ∧ s.disk.size f = a.offset ∧
    result.2.disk.Stands f a.offset payload
  lockable : Lockable result.2.disk result.2.locks path

theorem stands_setObject {d : Disk} {f : FileId} {c : Content} (hc : d.content? f = some c)
    (payload : Bytes) :
    (d.setObject f (.regular (c.write c.size (encode payload)))).Stands f c.size payload := by
  refine ⟨c.write c.size (encode payload), ?_, ?_⟩
  · rw [Disk.content?_setObject d f _ f (Disk.content?_lt hc), if_pos rfl]
  · have hrest : (c.bytes ++ encode payload).drop c.size = encode payload := by
      rw [← Content.length_bytes, List.drop_left]
    exact ⟨[], by rw [Content.bytes_write_size, hrest, List.append_nil]⟩

theorem stored_of_put {i : Nat} {f : FileId} {c : Content} {payload : Bytes}
    {result : Outcome × Store} (h : Present s.disk path files)
    (hlock : Lockable s.disk s.locks path)
    (heffect : PutEffect s path config files payload result i f c)
    (hi : i < Address.maxFileIndex) (hfits : Fits c.size payload) :
    Keeps path files s result.2 ∧
      Stored s path files payload (Address.ofParts i c.size) result := by
  have hextends := s.disk.openOrCreate_extends path lockName
  have hc := heffect.content
  have hc' := hextends.content_some hc
  have hroom : c.size ≤ Address.offsetMask := Nat.le_trans (Nat.le_add_right _ _) hfits.2
  obtain ⟨hout, hdisk⟩ := heffect.fits hfits
  have hagain : Lockable result.2.disk result.2.locks path := by
    rw [hdisk, heffect.locks]
    exact hlock.setObject hc _
  refine ⟨⟨?_, fun g hg => ?_, fun _ => hagain⟩, by rw [hout], hfits.1, ⟨f, ?_, ?_, ?_⟩, hagain⟩
  · rw [hdisk]
    exact (h.extends hextends).setObject hc' _
  · rw [hdisk]
    exact (appends_of_extends h hextends g hg).trans
      (appends_setObject hc' _ ((h.extends hextends).regular hg))
  · rw [Address.fileIndex_ofParts hi hroom, heffect.file]
  · rw [Address.offset_ofParts hi hroom, Disk.size, hc]
    rfl
  · rw [Address.offset_ofParts hi hroom, hdisk]
    exact stands_setObject hc' payload

/-- A put in a directory of regular files has put its record and printed the address, or has failed,
and the files only grow. That is so whoever has the lock. -/
theorem put_outcome (hnamed : path ≠ "") (h : Present s.disk path files) (hvalid : config.Valid)
    (hcount : config.fileCount.toNat = files.length) (hprompt : s.failuresHeld = false)
    (data : String) (hex : Bool) :
    Keeps path files s (put s path config data hex).2 ∧
      ((put s path config data hex).1.exit = 0 → ∃ payload a, putPayload data hex = .ok payload ∧
        Stored s path files payload a (put s path config data hex)) := by
  have hextends := s.disk.openOrCreate_extends path lockName
  cases hpayload : putPayload data hex with
  | error fault =>
    have hput : put s path config data hex = (failed (Quoted.quote fault.message) [], s) := by
      unfold put
      rw [hpayload]
    rw [hput]
    exact ⟨keeps_refl h, fun hexit => by cases hexit⟩
  | ok payload =>
    by_cases hlock : Lockable s.disk s.locks path
    · obtain ⟨i, f, c, heffect⟩ := put_effect hnamed h hvalid hcount hlock hprompt hpayload
      by_cases hfits : Fits c.size payload
      · have hi := lt_maxFileIndex hvalid hcount heffect.foremost.mem
        obtain ⟨hkeeps, hstored⟩ := stored_of_put h hlock heffect hi hfits
        exact ⟨hkeeps, fun _ => ⟨payload, _, rfl, hstored⟩⟩
      · obtain ⟨⟨debug, hput⟩, hdisk⟩ := heffect.refused hfits
        refine ⟨⟨?_, ?_, fun _ => ?_⟩, fun hexit => ?_⟩
        · rw [hdisk]
          exact h.extends hextends
        · rw [hdisk]
          exact appends_of_extends h hextends
        · rw [hdisk, heffect.locks]
          exact hlock.again
        · rw [hput] at hexit
          cases hexit
    · obtain ⟨e, t, hopen, hgrown⟩ := openPool_of_not_lockable config hlock
      obtain ⟨hexit, hstore⟩ := put_of_refused hpayload hopen
      rw [hstore, hexit]
      exact ⟨⟨h.extends hgrown, appends_of_extends h hgrown, fun hlock' => absurd hlock' hlock⟩,
        fun hzero => by cases hzero⟩

/-! ## Sequences of puts -/

theorem keeps_of_run (h : Present s.disk path files) (hvalid : Config.Valid { fileCount := count })
    (hcount : count.toNat = files.length) (hput : Asks args path count (.put data hex)) :
    Keeps path files s (run s args).2 := by
  rw [run_of_asks hput (by simp)]
  obtain ⟨hpresent, happends, hlockable⟩ :=
    (put_outcome (s := prompt s) (named_of_asks hput) h hvalid hcount rfl data hex).1
  exact ⟨hpresent, happends, hlockable⟩

theorem keeps_of_runAll {commands : List (List String)} (h : Present s.disk path files)
    (hvalid : Config.Valid { fileCount := count }) (hcount : count.toNat = files.length)
    (hputs : ∀ args ∈ commands, ∃ data hex, Asks args path count (.put data hex)) :
    Keeps path files s (runAll s commands) := by
  induction commands generalizing s with
  | nil => exact keeps_refl h
  | cons args rest ih =>
    obtain ⟨data, hex, hput⟩ := hputs args List.mem_cons_self
    have hfirst := keeps_of_run h hvalid hcount hput
    exact hfirst.trans (ih hfirst.present fun later hlater =>
      hputs later (List.mem_cons_of_mem _ hlater))

theorem present_of_create {d d' : Disk} (h : Layout.create d path config = (.ok (), d')) :
    config.Valid ∧ ∃ files, config.fileCount.toNat = files.length ∧ Present d' path files ∧
      ∀ f ∈ files, d'.content? f = some (.ofBytes magic) := by
  obtain ⟨hvalid, dir, files, -, -, hcount, hfiles⟩ := create_ok h
  exact ⟨hvalid, files, hcount.symm, present_of_tags hfiles⟩

theorem stands_of_appends {d d' : Disk} {f : FileId} {offset : Nat} {payload : Bytes}
    (hstands : d.Stands f offset payload) (happends : d.Appends d' f) :
    d'.Stands f offset payload := by
  obtain ⟨c, hc, hrecord⟩ := hstands
  obtain ⟨c₁, c', hc₁, hc', more, hmore⟩ := happends
  obtain rfl := Option.some.inj (hc₁.symm.trans hc)
  refine ⟨c', hc', hrecord.trans ?_⟩
  rw [← hmore, List.drop_append]
  exact List.prefix_append _ _

theorem dataStart_le_size {d d' : Disk} {f : FileId} (hc : d.content? f = some (.ofBytes magic))
    (happends : d.Appends d' f) : dataStart ≤ d'.size f := by
  obtain ⟨c, c', hc₁, hc', hprefix⟩ := happends
  obtain rfl := Option.some.inj (hc.symm.trans hc₁)
  have hlength := hprefix.length_le
  rw [Content.bytes_ofBytes, Content.length_bytes] at hlength
  rw [Disk.size, hc']
  exact hlength

theorem payloadText_of_put {payload : Bytes} (hpayload : putPayload data hex = .ok payload) :
    (hex = false → payloadText payload false = data ∧
      payloadText payload true = Hex.encodeText (Utf8.encode data.toList)) ∧
    (hex = true → (∀ c ∈ data.toList, Hex.isDigit c) →
      payloadText payload true = String.ofList (data.toList.map Char.toLower)) := by
  constructor
  · rintro rfl
    obtain rfl := Except.ok.inj hpayload
    exact ⟨Utf8.decodeLossy_encode data, rfl⟩
  · rintro rfl hdigits
    exact Hex.encodeText_of_decode hdigits hpayload

theorem create_of_makedb {outcome : Outcome} (h : makedb s path config = (outcome, t))
    (hcreated : outcome.out = line s!"Created {config.fileCount.toNat} backing files in {path}") :
    Layout.create s.disk path config = (.ok (), t.disk) := by
  have hmade := (makedb_created h).1 hcreated
  have hstore : t = (s.create path config).2 := by
    unfold makedb at h
    rw [show s.create path config = (.ok (), (s.create path config).2) from Prod.ext hmade rfl] at h
    exact (congrArg Prod.snd h).symm
  rw [hstore]
  exact Prod.ext hmade rfl

theorem create_of_run {outcome : Outcome} (hmakedb : Asks args path count .makedb)
    (hmade : run s args = (outcome, t))
    (hcreated : outcome.out = line s!"Created {count.toNat} backing files in {path}") :
    Layout.create s.disk path { fileCount := count } = (.ok (), t.disk) := by
  rw [run_of_asks hmakedb (by simp)] at hmade
  have hout : (makedb (prompt s) path { fileCount := count }).1 = outcome :=
    congrArg Prod.fst hmade
  have hdisk : (makedb (prompt s) path { fileCount := count }).2.disk = t.disk :=
    congrArg (fun result => result.2.disk) hmade
  rw [← hout] at hcreated
  rw [← hdisk]
  exact create_of_makedb (s := prompt s) rfl hcreated

theorem present_of_run {outcome : Outcome} (hmakedb : Asks args path count .makedb)
    (hmade : run s args = (outcome, t))
    (hcreated : outcome.out = line s!"Created {count.toNat} backing files in {path}") :
    Config.Valid { fileCount := count } ∧ ∃ files, count.toNat = files.length ∧
      Present t.disk path files ∧ ∀ f ∈ files, t.disk.content? f = some (.ofBytes magic) :=
  present_of_create (create_of_run hmakedb hmade hcreated)

theorem stored_of_run {outcome : Outcome} (h : Present s.disk path files)
    (hvalid : Config.Valid { fileCount := count }) (hcount : count.toNat = files.length)
    (hput : Asks args path count (.put data hex)) (hrun : run s args = (outcome, t))
    (hexit : outcome.exit = 0) : ∃ payload a, putPayload data hex = .ok payload ∧
      Stored s path files payload a (outcome, t) := by
  rw [run_of_asks hput (by simp)] at hrun
  obtain ⟨rfl, rfl⟩ := Prod.ext_iff.1 hrun
  obtain ⟨payload, a, hpayload, hprinted, hlength, hrecord, hlockable⟩ :=
    (put_outcome (s := prompt s) (named_of_asks hput) h hvalid hcount rfl data hex).2 hexit
  exact ⟨payload, a, hpayload, hprinted, hlength, hrecord, hlockable⟩

theorem get_of_stands {getArgs : List String} {text : String} {asHex : Bool} {a : Address}
    {f : FileId} {payload : Bytes} (h : Present s.disk path files)
    (hvalid : Config.Valid { fileCount := count }) (hcount : count.toNat = files.length)
    (hlock : Lockable s.disk s.locks path) (hf : files[a.fileIndex]? = some f)
    (hoffset : dataStart ≤ a.offset) (hstands : s.disk.Stands f a.offset payload)
    (hlength : payload.length ≤ maxLength) (htext : text = a.text ∨ text = toString a.raw.toNat)
    (hget : Asks getArgs path count (.get text asHex)) :
    (run s getArgs).1.exit = 0 ∧ (run s getArgs).1.out = line (payloadText payload asHex) := by
  have hread : Address.ofText text.toList = .ok a := by
    rcases htext with rfl | rfl
    · exact a.ofText_hex
    · exact a.ofText_decimal
  have hfound := (get_effect (s := prompt s) (named_of_asks hget) h hvalid hcount hlock rfl hread
    hf hoffset hstands hlength asHex).1
  rw [run_of_asks hget (by simp)]
  show (get (prompt s) path { fileCount := count } text asHex).1.exit = 0 ∧
    (get (prompt s) path { fileCount := count } text asHex).1.out = _
  rw [hfound]
  exact ⟨rfl, rfl⟩

/-- In a directory that `makedb` has made, a put that succeeds among any puts prints an address under
which every later get finds its payload, whether it is given as printed or in decimal. A text comes
back as it was, and in hexadecimal digits as its bytes in UTF-8; a payload of hexadecimal digits comes
back in lower case. -/
theorem put_then_get {s₀ s : Store} {path : String} {count : UInt64} {makedbArgs : List String}
    {created : Outcome} (hmakedb : Asks makedbArgs path count .makedb)
    (hmade : run s₀ makedbArgs = (created, s))
    (hcreated : created.out = line s!"Created {count.toNat} backing files in {path}")
    {before later : List (List String)}
    (hputs : ∀ args ∈ before ++ later, ∃ data hex, Asks args path count (.put data hex))
    {putArgs : List String} {data : String} {hex : Bool} {outcome : Outcome} {t : Store}
    (hput : Asks putArgs path count (.put data hex))
    (hrun : run (runAll s before) putArgs = (outcome, t)) (hexit : outcome.exit = 0) :
    ∃ a : Address, outcome.out = line a.text ∧
      ∀ (getArgs : List String) (text : String) (asHex : Bool),
        text = a.text ∨ text = toString a.raw.toNat →
        Asks getArgs path count (.get text asHex) →
        (run (runAll t later) getArgs).1.exit = 0 ∧
        (hex = false → asHex = false → (run (runAll t later) getArgs).1.out = line data) ∧
        (hex = false → asHex = true → (run (runAll t later) getArgs).1.out =
          line (Hex.encodeText (Utf8.encode data.toList))) ∧
        (hex = true → asHex = true → (∀ c ∈ data.toList, Hex.isDigit c) →
          (run (runAll t later) getArgs).1.out =
            line (String.ofList (data.toList.map Char.toLower))) := by
  obtain ⟨hvalid, files, hcount, hpresent, htags⟩ := present_of_run hmakedb hmade hcreated
  have hbefore := keeps_of_runAll hpresent hvalid hcount fun args hargs =>
    hputs args (List.mem_append_left later hargs)
  obtain ⟨payload, a, hpayload, hprinted, hlength, ⟨f, hf, hsize, hstands⟩, hlock⟩ :=
    stored_of_run hbefore.present hvalid hcount hput hrun hexit
  have hmem := List.mem_of_getElem? hf
  have hoffset : dataStart ≤ a.offset :=
    hsize ▸ dataStart_le_size (htags f hmem) (hbefore.appends f hmem)
  have hafter : Present t.disk path files := by
    have hkeeps := keeps_of_run hbefore.present hvalid hcount hput
    rw [hrun] at hkeeps
    exact hkeeps.present
  have hlater := keeps_of_runAll hafter hvalid hcount fun args hargs =>
    hputs args (List.mem_append_right before hargs)
  have hfound := stands_of_appends hstands (hlater.appends f hmem)
  obtain ⟨htext, hhex⟩ := payloadText_of_put hpayload
  refine ⟨a, hprinted, fun getArgs text asHex hspelled hget => ?_⟩
  obtain ⟨hzero, hout⟩ := get_of_stands hlater.present hvalid hcount (hlater.lockable hlock) hf
    hoffset hfound hlength hspelled hget
  refine ⟨hzero, fun hplain hasText => ?_, fun hplain hasHex => ?_, fun hdigits hasHex hall => ?_⟩
  · rw [hout, hasText, (htext hplain).1]
  · rw [hout, hasHex, (htext hplain).2]
  · rw [hout, hasHex, hhex hdigits hall]

/-! Two files, and puts before and after, of which the first is refused. -/

def onPair (words : List String) : List String := ["-p", "db", "--files", "2"] ++ words

def pairMade : Store := (run (.ofDisk (.withDirectory "db")) (onPair ["makedb"])).2

def refusedPut : List (List String) := [onPair ["put", "--hex", "0AF"]]

def laterPut : List (List String) := [onPair ["put", "--hex", "0AfF"]]

theorem put_then_get_amongPuts :
    (run (runAll pairMade refusedPut) (onPair ["put", "hé"])).1.exit = 0 ∧
      (run (runAll (run (runAll pairMade refusedPut) (onPair ["put", "hé"])).2 laterPut)
        (onPair ["get", "8"])).1.out = line "hé" := by
  have hmakedb : Asks (onPair ["makedb"]) "db" 2 .makedb := ⟨false, by decide +kernel⟩
  have hmade : run (.ofDisk (.withDirectory "db")) (onPair ["makedb"]) =
      ((run (.ofDisk (.withDirectory "db")) (onPair ["makedb"])).1, pairMade) := rfl
  have hputs : ∀ args ∈ refusedPut ++ laterPut,
      ∃ data hex, Asks args "db" 2 (.put data hex) := by
    simp only [refusedPut, laterPut, List.cons_append, List.nil_append, List.forall_mem_cons]
    exact ⟨⟨"0AF", true, false, by decide +kernel⟩, ⟨"0AfF", true, false, by decide +kernel⟩,
      by simp⟩
  have hput : Asks (onPair ["put", "hé"]) "db" 2 (.put "hé" false) := ⟨false, by decide +kernel⟩
  have hget : Asks (onPair ["get", "8"]) "db" 2 (.get "8" false) := ⟨false, by decide +kernel⟩
  have hprints : (run (runAll pairMade refusedPut) (onPair ["put", "hé"])).1 =
      { out := line "0x0000000000000008"
        logs := [openedLog "db" 2] } := by decide +kernel
  obtain ⟨outcome, t, hrun⟩ : ∃ outcome t,
      run (runAll pairMade refusedPut) (onPair ["put", "hé"]) = (outcome, t) := ⟨_, _, rfl⟩
  rw [hrun] at hprints ⊢
  dsimp only at hprints ⊢
  have hexit : outcome.exit = 0 := by rw [hprints]
  obtain ⟨a, hprinted, hfound⟩ :=
    put_then_get hmakedb hmade (by decide +kernel) hputs hput hrun hexit
  -- the printed text reads back as the address, so the address is 8
  have haddress : a = ⟨8⟩ := by
    have htext : a.text = "0x0000000000000008" := by
      rw [hprints] at hprinted
      exact (String.append_left_inj "\n").1 hprinted.symm
    have hread := a.ofText_hex
    rw [htext] at hread
    exact Except.ok.inj (hread.symm.trans (by decide +kernel))
  exact ⟨hexit, (hfound _ "8" false (.inr (by rw [haddress]; decide)) hget).2.1 rfl rfl⟩

end RecordStore.Command
