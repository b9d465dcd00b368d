import SingBox.Lib.Machine
import SingBox.Panel.Contract

/-! The store of the adapter's state: the state in memory, the file, and the hash by
which a save that would change nothing is left out. -/

namespace SingBox.Panel
open Lib Machine
open Option (map_some map_eq_some_iff some)

def currentVersion : Int := 1

/-- A state as it is written out, with its version and with a table of inbounds that
may be nil. The fields without a value have Go's zero. -/
structure Document where
  version : Int := 0
  config : ConfigState := {}
  inbounds : Option (AList (fun _ : String => InboundState)) := none
  pendingReports : List PendingReport := []
  quarantinedReports : List QuarantinedReport := []
  update : UpdateState := {}

namespace Document

def newState : Document where
  version := currentVersion
  inbounds := some ∅

def ensureInbounds (d : Document) : Document := { d with inbounds := some (d.inbounds.getD ∅) }

def clone : Option Document → Document
  | none => newState
  | some d => d.ensureInbounds

/-- Whether there is a state, with a table of inbounds. -/
def HasInbounds (d : Option Document) : Prop := d.any (·.inbounds.isSome) = true

@[simp] lemma hasInbounds_some {d : Document} :
    HasInbounds (some d) ↔ d.inbounds.isSome := Iff.rfl

end Document

/-- The JSON and hash libraries on states. A state that is decoded and encoded again
gives the same text, and no two states of which only one has a table of inbounds
have the same. -/
structure Serialization where
  encode : Option Document → Except String Bytes
  decode : Bytes → Except String Document
  sha256 : Bytes → Bytes
  encode_ne_nil : ∀ {d data}, encode d = .ok data → data ≠ []
  decode_encode : ∀ {d data}, Document.HasInbounds d → encode d = .ok data →
    ∃ e, decode data = .ok e ∧ encode (some e.ensureInbounds) = .ok data
  encode_inbounds : ∀ {d e data}, encode d = .ok data → encode e = .ok data →
    (Document.HasInbounds d ↔ Document.HasInbounds e)

/-- The operations of `atomicWriteFile`, in their order. -/
inductive WriteStep
  | createDirectory | createTemp | write | fsync | close | rename
  deriving DecidableEq

def WriteStep.message : WriteStep → String
  | .createDirectory => "create state directory"
  | .createTemp => "create temp state file"
  | .write => "write temp state file"
  | .fsync => "fsync temp state file"
  | .close => "close temp state file"
  | .rename => "rename temp state file"

/-- What goes wrong in a call, and the time. -/
structure StoreEnv where
  readError : Option String := none
  quarantineError : Option String := none
  writeError : Option (WriteStep × String) := none
  now : Int := 0

structure Store where
  path : String
  state : Option Document
  lastHash : Bytes

/-- A process with its store, and the file. -/
structure StoreHost where
  file : Option Bytes := none
  store : Option Store := none

/-- The calls; `newStore` is made by a new process. -/
inductive StoreCall
  | newStore (path : String)
  | setState (state : Option Document)
  | save
  | saveIfChanged
  | updateAndSave (update : Document → Document)

namespace Serialization

variable (J : Serialization)

def marshalJSON (d : Option Document) : Except String Bytes :=
  match J.encode d with
  | .error err => .error ("encode state: " ++ err)
  | .ok data => .ok data

def computeHash (d : Option Document) : Except String Bytes :=
  match J.marshalJSON d with
  | .error err => .error err
  | .ok data => .ok (J.sha256 data)

variable (env : StoreEnv) (file : Option Bytes)

/-- `Load`, with the file that is left: a corrupt one is moved away. -/
def load (path : String) (file : Option Bytes) : Option Bytes × Except (List String) Document :=
  match env.readError with
  | some err => (file, .error ["read state file: " ++ err])
  | none =>
    match file with
    | none => (file, .ok .newState)
    | some data =>
      if data.length = 0 then (file, .ok .newState)
      else
        match J.decode data with
        | .ok d => (file, .ok d.ensureInbounds)
        | .error err =>
          match env.quarantineError with
          | some qErr => (file, .error [err, "quarantine corrupt state file: " ++ qErr])
          | none =>
            (none, .error ["parse state file (corrupt file quarantined to " ++ path ++ ".corrupt." ++
              toString env.now ++ "): " ++ err])

/-- The file after an atomic write: the new text is there once it was renamed. -/
def writeState (d : Option Document) : Option Bytes × List String :=
  match J.marshalJSON d with
  | .error err => (file, [err])
  | .ok data =>
    match env.writeError with
    | some (step, err) => (file, [step.message ++ ": " ++ err])
    | none => (some data, [])

def newStore (env : StoreEnv) (path : String) (s : StoreHost) : StoreHost × List String :=
  match J.load env path s.file with
  | (file, .error errs) => ({ file }, errs)
  | (file, .ok d) =>
    match J.computeHash (some d) with
    | .error err => ({ file }, [err])
    | .ok lastHash => ({ file, store := some { path, state := some d, lastHash } }, [])

variable (st : Store)

def save : StoreHost × List String :=
  let written := J.writeState env file st.state
  ({ file := written.1, store := some st }, written.2)

def saveIfChanged : StoreHost × List String :=
  match J.computeHash st.state with
  | .error err => ({ file, store := some st }, [err])
  | .ok currentHash =>
    if currentHash = st.lastHash then ({ file, store := some st }, [])
    else
      match J.writeState env file st.state with
      | (file, []) => ({ file, store := some { st with lastHash := currentHash } }, [])
      | (file, errs) => ({ file, store := some st }, errs)

def updateAndSave (update : Document → Document) (file : Option Bytes)
    (st : Store) : StoreHost × List String :=
  let next := update (.clone st.state)
  if st.path = "" then ({ file, store := some { st with state := some next } }, [])
  else
    match J.computeHash (some next) with
    | .error err => ({ file, store := some st }, [err])
    | .ok currentHash =>
      if currentHash = st.lastHash then
        ({ file, store := some { st with state := some next } }, [])
      else
        match J.writeState env file (some next) with
        | (file, []) =>
          ({ file, store := some { st with lastHash := currentHash, state := some next } }, [])
        | (file, errs) => ({ file, store := some st }, errs)

/-- A call and the errors it returns; without a store only `NewStore` can be called. -/
def call (s : StoreHost) (env : StoreEnv) : StoreCall → Option (StoreHost × List String)
  | .newStore path => some (J.newStore env path s)
  | .setState state => s.store.map fun st => ({ s with store := some { st with state } }, [])
  | .save => s.store.map (J.save env s.file)
  | .saveIfChanged => s.store.map (J.saveIfChanged env s.file)
  | .updateAndSave update => s.store.map (J.updateAndSave env update s.file)

def step : Machine StoreHost (StoreCall × StoreEnv)
  | s, (c, env) => (J.call s env c).map (·.1)

/-- The serialisation of what the file is loaded to. -/
def fileData : Option Bytes :=
  match (J.load {} "" file).2 with
  | .ok d => (J.marshalJSON (some d)).toOption
  | .error _ => none

/-- The file is loaded to a state with the serialisation of the one in memory. -/
def InStep : Prop :=
  ∃ data, J.marshalJSON st.state = .ok data ∧ J.fileData file = some data

/-- The hash on record is the one of the file. -/
def Current : Prop := (J.fileData file).map J.sha256 = some st.lastHash

def HashInjective : Prop :=
  ∀ {d e a b}, J.encode d = .ok a → J.encode e = .ok b → J.sha256 a = J.sha256 b → a = b

end Serialization

def StoreCall.saves : StoreCall → Prop
  | .save | .saveIfChanged | .updateAndSave _ => True
  | .newStore _ | .setState _ => False

/-- A call that saves leaves out the write for the hash on record. -/
def StoreCall.Skips (J : Serialization) (st : Store) : StoreCall → Prop
  | .saveIfChanged => J.computeHash st.state = .ok st.lastHash
  | .updateAndSave update => J.computeHash (some (update (.clone st.state))) = .ok st.lastHash
  | _ => False

namespace Serialization

variable {J : Serialization} {env : StoreEnv} {file file' : Option Bytes} {st : Store}
  {d : Option Document} {data : Bytes} {errs : List String}

lemma marshalJSON_eq_ok : J.marshalJSON d = .ok data ↔ J.encode d = .ok data := by
  unfold marshalJSON
  cases J.encode d with
  | error err => exact ⟨nofun, nofun⟩
  | ok data' => rfl

variable {hash : Bytes}

lemma computeHash_eq_ok :
    J.computeHash d = .ok hash ↔ ∃ data, J.encode d = .ok data ∧ J.sha256 data = hash := by
  unfold computeHash
  cases h : J.marshalJSON d with
  | error err =>
    refine ⟨nofun, fun ⟨data, hdata, _⟩ => ?_⟩
    cases h.symm.trans (marshalJSON_eq_ok.mpr hdata)
  | ok data =>
    have hdata := marshalJSON_eq_ok.mp h
    constructor
    · rintro ⟨⟩
      exact ⟨data, hdata, rfl⟩
    · rintro ⟨data', hdata', rfl⟩
      cases hdata.symm.trans hdata'
      rfl

/-- A write that returns nil has left the text of the state in the file. -/
theorem writeState_eq_nil (h : J.writeState env file d = (file', [])) :
    ∃ data, J.encode d = .ok data ∧ file' = some data := by
  unfold writeState at h
  split at h
  · cases h
  · next data hdata =>
    split at h
    · cases h
    · cases h
      exact ⟨data, marshalJSON_eq_ok.mp hdata, rfl⟩

lemma writeState_of_error (h : J.writeState env file d = (file', errs)) (herrs : errs ≠ []) :
    file' = file := by
  unfold writeState at h
  split at h
  · cases h
    rfl
  · split at h
    · cases h
      rfl
    · cases h
      exact absurd rfl herrs

variable {path : String}

/-- A file that can be loaded stays, and what it is loaded to depends on nothing
else and has a table of inbounds. -/
theorem load_eq_ok {e : Document} (h : J.load env path file = (file', .ok e)) :
    file' = file ∧ (J.load {} "" file).2 = .ok e ∧ Document.HasInbounds (some e) := by
  unfold load at h
  split at h
  · cases h
  split at h
  · cases h
    exact ⟨rfl, rfl, rfl⟩
  split at h
  · next hempty =>
    cases h
    refine ⟨rfl, ?_, rfl⟩
    simp only [load, if_pos hempty]
  next hne =>
  split at h
  · next d hd =>
    cases h
    refine ⟨rfl, ?_, rfl⟩
    simp only [load, if_neg hne, hd]
  · split at h <;> cases h

lemma fileData_eq_some (h : J.fileData file = some data) :
    ∃ e, Document.HasInbounds (some e) ∧ J.encode (some e) = .ok data := by
  unfold fileData at h
  split at h
  · next e he =>
    have hload : J.load {} "" file = ((J.load {} "" file).1, .ok e) := Prod.ext rfl he
    refine ⟨e, (load_eq_ok hload).2.2, marshalJSON_eq_ok.mp ?_⟩
    cases hdata : J.marshalJSON (some e) with
    | error err =>
      rw [hdata] at h
      cases h
    | ok data' =>
      rw [hdata] at h
      cases h
      rfl
  · cases h

/-- The text of a state with a table of inbounds is loaded to a state with that text. -/
theorem fileData_encode (hd : Document.HasInbounds d) (hdata : J.encode d = .ok data) :
    J.fileData (some data) = some data := by
  obtain ⟨e, he, hagain⟩ := J.decode_encode hd hdata
  have hne : data.length ≠ 0 := fun h => J.encode_ne_nil hdata (List.eq_nil_of_length_eq_zero h)
  simp only [fileData, load, if_neg hne, he, marshalJSON_eq_ok.mpr hagain]
  rfl

/-- After its state was written, the store is in step just when the state has a
table of inbounds. -/
theorem inStep_of_written (hdata : J.encode st.state = .ok data) :
    J.InStep (some data) st ↔ Document.HasInbounds st.state := by
  constructor
  · rintro ⟨data', hst, hfile⟩
    obtain ⟨e, he, henc⟩ := fileData_eq_some hfile
    exact (J.encode_inbounds (marshalJSON_eq_ok.mp hst) henc).mpr he
  · intro hd
    exact ⟨data, marshalJSON_eq_ok.mpr hdata, fileData_encode hd hdata⟩

/-- Where the state has the hash on record, the store is in step just when that is
the hash of the file. -/
theorem inStep_of_skipped (hinj : J.HashInjective) (h : J.computeHash st.state = .ok st.lastHash) :
    J.InStep file st ↔ Document.HasInbounds st.state ∧ J.Current file st := by
  obtain ⟨data, hdata, hhash⟩ := computeHash_eq_ok.mp h
  constructor
  · rintro ⟨data', hst, hfile⟩
    obtain ⟨e, he, henc⟩ := fileData_eq_some hfile
    cases hdata.symm.trans (marshalJSON_eq_ok.mp hst)
    refine ⟨(J.encode_inbounds hdata henc).mpr he, ?_⟩
    rw [Current, hfile, map_some, hhash]
  · rintro ⟨-, hcur⟩
    obtain ⟨data', hfile, hhash'⟩ := map_eq_some_iff.mp hcur
    obtain ⟨e, -, henc⟩ := fileData_eq_some hfile
    cases hinj hdata henc (hhash.trans hhash'.symm)
    exact ⟨data, marshalJSON_eq_ok.mpr hdata, hfile⟩

/-- What `SaveIfChanged` and `UpdateAndSave` do about a state `d`. -/
inductive Persisted (J : Serialization) (file : Option Bytes) (st : Store) (d : Option Document) :
    StoreHost × List String → Prop
  | skipped (hhash : J.computeHash d = .ok st.lastHash) :
      Persisted J file st d (⟨file, some { st with state := d }⟩, [])
  | written {data : Bytes} (hdata : J.encode d = .ok data) (hhash : J.sha256 data ≠ st.lastHash) :
      Persisted J file st d
        (⟨some data, some { st with state := d, lastHash := J.sha256 data }⟩, [])
  | failed {errs : List String} (herrs : errs ≠ []) : Persisted J file st d (⟨file, some st⟩, errs)

lemma persisted_of_write (hhash : J.computeHash d = .ok hash)
    (hne : hash ≠ st.lastHash) : Persisted J file st d (match J.writeState env file d with
      | (file, []) => (⟨file, some { st with lastHash := hash, state := d }⟩, [])
      | (file, errs) => (⟨file, some st⟩, errs)) := by
  obtain ⟨data, hdata, rfl⟩ := computeHash_eq_ok.mp hhash
  split
  · next hwrite =>
    obtain ⟨data', hdata', rfl⟩ := writeState_eq_nil hwrite
    cases hdata.symm.trans hdata'
    exact .written hdata hne
  · next errs herrs hwrite =>
    cases writeState_of_error hwrite herrs
    exact .failed herrs

lemma saveIfChanged_persisted : Persisted J file st st.state (J.saveIfChanged env file st) := by
  unfold saveIfChanged
  split
  · exact .failed nofun
  next currentHash hhash =>
  split
  · next heq => exact .skipped (hhash.trans (congrArg _ heq))
  · next hne => exact persisted_of_write hhash hne

lemma updateAndSave_persisted (hpath : st.path ≠ "") (update : Document → Document) :
    Persisted J file st (some (update (.clone st.state))) (J.updateAndSave env update file st) := by
  unfold updateAndSave
  rw [if_neg hpath]
  split
  · exact .failed nofun
  next currentHash hhash =>
  split
  · next heq => exact .skipped (hhash.trans (congrArg _ heq))
  · next hne => exact persisted_of_write hhash hne

variable {t : StoreHost}

lemma Persisted.inStep_iff (hinj : J.HashInjective) (h : Persisted J file st d (t, [])) :
    ∃ st', t.store = some st' ∧ (J.InStep t.file st' ↔ Document.HasInbounds st'.state ∧
      (J.computeHash d = .ok st.lastHash → J.Current file st)) := by
  cases h with
  | skipped hhash =>
    refine ⟨_, rfl, (inStep_of_skipped hinj hhash).trans ?_⟩
    exact and_congr_right fun _ => ⟨fun h _ => h, fun h => h hhash⟩
  | written hdata hne =>
    refine ⟨_, rfl, (inStep_of_written hdata).trans ?_⟩
    refine (and_iff_left fun hhash => absurd ?_ hne).symm
    obtain ⟨data, hdata', hlast⟩ := computeHash_eq_ok.mp hhash
    cases hdata.symm.trans hdata'
    exact hlast
  | failed herrs => exact absurd rfl herrs

/-- A store that is as it should be: it has a path, its state a table of inbounds,
and the hash on record is the one of the file. -/
structure Sound (J : Serialization) (file : Option Bytes) (st : Store) : Prop where
  path : st.path ≠ ""
  inbounds : Document.HasInbounds st.state
  current : J.Current file st

lemma Persisted.sound (h : Persisted J file st d (t, errs)) (hd : Document.HasInbounds d)
    (hst : J.Sound file st) : ∃ st', t.store = some st' ∧ J.Sound t.file st' := by
  cases h with
  | skipped => exact ⟨_, rfl, hst.path, hd, hst.current⟩
  | written hdata =>
    refine ⟨_, rfl, hst.path, hd, ?_⟩
    rw [Current, fileData_encode hd hdata]
    rfl
  | failed => exact ⟨st, rfl, hst⟩

/-- Whoever sets a state gives it a table of inbounds, and `Save` is called only
where the state has the hash on record. -/
def Careful (J : Serialization) (s : StoreHost) : StoreCall × StoreEnv → Prop
  | (.newStore path, _) => path ≠ ""
  | (.setState state, _) => Document.HasInbounds state
  | (.save, _) => ∀ st, s.store = some st → J.computeHash st.state = .ok st.lastHash
  | (.saveIfChanged, _) => True
  | (.updateAndSave update, _) =>
    ∀ d, Document.HasInbounds (some d) → Document.HasInbounds (some (update d))

variable {s : StoreHost}

lemma newStore_sound (h : J.newStore env path s = (t, errs))
    (hpath : path ≠ "") : ∀ st, t.store = some st → J.Sound t.file st := by
  unfold newStore at h
  split at h
  · cases h
    exact nofun
  next file d hload =>
  obtain ⟨rfl, hagain, hd⟩ := load_eq_ok hload
  split at h
  · cases h
    exact nofun
  next lastHash hhash =>
  cases h
  rintro _ ⟨⟩
  obtain ⟨data, hdata, rfl⟩ := computeHash_eq_ok.mp hhash
  refine ⟨hpath, hd, ?_⟩
  simp only [Current, fileData, hagain, marshalJSON_eq_ok.mpr hdata]
  rfl

lemma save_sound (h : J.save env file st = (t, errs))
    (hhash : J.computeHash st.state = .ok st.lastHash) (hst : J.Sound file st) :
    ∃ st', t.store = some st' ∧ J.Sound t.file st' := by
  cases h
  refine ⟨st, rfl, hst.path, hst.inbounds, ?_⟩
  cases hwrite : J.writeState env file st.state with
  | mk file' errs =>
    cases errs with
    | nil =>
      obtain ⟨data, hdata, rfl⟩ := writeState_eq_nil hwrite
      obtain ⟨data', hdata', hlast⟩ := computeHash_eq_ok.mp hhash
      cases hdata.symm.trans hdata'
      rw [Current, fileData_encode hst.inbounds hdata, map_some, hlast]
    | cons =>
      cases writeState_of_error hwrite nofun
      exact hst.current

lemma step_sound {a : StoreCall × StoreEnv} (ha : J.Careful s a)
    (h : J.step s a = some t) (hs : ∀ st, s.store = some st → J.Sound s.file st) :
    ∀ st, t.store = some st → J.Sound t.file st := by
  obtain ⟨c, env⟩ := a
  obtain ⟨⟨t, errs⟩, hcall, rfl⟩ := map_eq_some_iff.mp h
  cases c with
  | newStore path => exact newStore_sound (some.inj hcall) ha
  | setState state =>
    obtain ⟨st, hst, ⟨⟩⟩ := map_eq_some_iff.mp hcall
    rintro _ ⟨⟩
    have hsound := hs st hst
    exact { hsound with inbounds := ha }
  | save =>
    obtain ⟨st, hst, hsave⟩ := map_eq_some_iff.mp hcall
    obtain ⟨st', hst', hsound⟩ := save_sound hsave (ha st hst) (hs st hst)
    intro _ h
    cases hst'.symm.trans h
    exact hsound
  | saveIfChanged =>
    obtain ⟨st, hst, hsave⟩ := map_eq_some_iff.mp hcall
    have hpers : Persisted J s.file st st.state (J.saveIfChanged env s.file st) :=
      saveIfChanged_persisted
    rw [hsave] at hpers
    obtain ⟨st', hst', hsound⟩ := hpers.sound (hs st hst).inbounds (hs st hst)
    intro _ h
    cases hst'.symm.trans h
    exact hsound
  | updateAndSave update =>
    obtain ⟨st, hst, hsave⟩ := map_eq_some_iff.mp hcall
    have hpers : Persisted J s.file st _ (J.updateAndSave env update s.file st) :=
      updateAndSave_persisted (hs st hst).path update
    rw [hsave] at hpers
    obtain ⟨st', hst', hsound⟩ := hpers.sound (ha _ (by cases st.state <;> rfl)) (hs st hst)
    intro _ h
    cases hst'.symm.trans h
    exact hsound

/-- A save that is acknowledged leaves the file in step with the memory just when the
state has a table of inbounds and, where the write is left out, the hash on record is
the one of the file. An update that fails changes nothing. And the hash on record is
the one of the file as long as `Save` is called only where the state has it. -/
theorem acknowledged_inStep_iff (J : Serialization) (hinj : J.HashInjective) :
    (∀ s t env c st, s.store = some st → st.path ≠ "" → c.saves → J.call s env c = some (t, []) →
      ∃ st', t.store = some st' ∧ (J.InStep t.file st' ↔
        Document.HasInbounds st'.state ∧ (c.Skips J st → J.Current s.file st))) ∧
    (∀ s t env update errs, J.call s env (.updateAndSave update) = some (t, errs) → errs ≠ [] →
      t = s) ∧
    ∀ file t, Reaches J.step J.Careful { file } t →
      ∀ st, t.store = some st → J.Current t.file st := by
  refine ⟨?_, ?_, ?_⟩
  · intro s t env c st hst hpath hsaves hcall
    cases c with
    | newStore | setState => cases hsaves
    | save =>
      obtain ⟨st', hst', hsave⟩ := map_eq_some_iff.mp hcall
      cases hst.symm.trans hst'
      cases hwrite : J.writeState env s.file st.state with
      | mk file errs =>
        simp only [save, hwrite] at hsave
        cases hsave
        obtain ⟨data, hdata, rfl⟩ := writeState_eq_nil hwrite
        exact ⟨st, rfl, (inStep_of_written hdata).trans (and_iff_left nofun).symm⟩
    | saveIfChanged =>
      obtain ⟨st', hst', hsave⟩ := map_eq_some_iff.mp hcall
      cases hst.symm.trans hst'
      have hpers : Persisted J s.file st st.state (J.saveIfChanged env s.file st) :=
        saveIfChanged_persisted
      rw [hsave] at hpers
      exact hpers.inStep_iff hinj
    | updateAndSave update =>
      obtain ⟨st', hst', hsave⟩ := map_eq_some_iff.mp hcall
      cases hst.symm.trans hst'
      have hpers : Persisted J s.file st _ (J.updateAndSave env update s.file st) :=
        updateAndSave_persisted hpath update
      rw [hsave] at hpers
      exact hpers.inStep_iff hinj
  · intro s t env update errs hcall herrs
    obtain ⟨st, hst, hsave⟩ := map_eq_some_iff.mp hcall
    by_cases hpath : st.path = ""
    · simp only [updateAndSave, if_pos hpath] at hsave
      cases hsave
      exact absurd rfl herrs
    have hpers : Persisted J s.file st _ (J.updateAndSave env update s.file st) :=
      updateAndSave_persisted hpath update
    rw [hsave] at hpers
    cases hpers with
    | skipped | written => exact absurd rfl herrs
    | failed => rw [← hst]
  · intro file t h
    have hsound := h.invariant nofun step_sound
    exact fun st hst => (hsound st hst).current

/-- In place of JSON, states are written as whether they have a table of inbounds, and version 1;
the text is its own hash. -/
def sample : Serialization where
  encode
    | none => .ok [0]
    | some d => .ok [if d.inbounds.isSome then 2 else 1, if d.version = 1 then 1 else 2]
  decode
    | [_, version] => .ok { version := version.toNat }
    | _ => .error "unexpected end of JSON input"
  sha256 data := data
  encode_ne_nil := by
    rintro (_ | d) data ⟨⟩ <;> exact nofun
  decode_encode := by
    rintro (_ | d) data hd ⟨⟩
    · cases hd
    · refine ⟨_, rfl, ?_⟩
      rw [if_pos (Document.hasInbounds_some.mp hd)]
      by_cases hversion : d.version = 1
      · rw [if_pos hversion]
        rfl
      · rw [if_neg hversion]
        rfl
  encode_inbounds := by
    rintro (_ | d) (_ | e) data ⟨⟩ h
    · rfl
    · simp at h
    · simp at h
    · simp only [Except.ok.injEq, List.cons.injEq] at h
      have hflag := h.1
      rw [Document.hasInbounds_some, Document.hasInbounds_some]
      cases hd : d.inbounds.isSome <;> cases he : e.inbounds.isSome <;> simp_all

def sampleState (version : Int) : Document := { version, inbounds := some ∅ }

/-- A store is opened and its state set to version 2. -/
def changedHost : StoreHost where
  store := some { path := "p", state := some (sampleState 2), lastHash := [2, 1] }

theorem acknowledged_inStep_of_change :
    run sample.step {} [(.newStore "p", {}), (.setState (some (sampleState 2)), {})] =
        some changedHost ∧
      ∃ t st, sample.call changedHost {} .saveIfChanged = some (t, []) ∧ t.store = some st ∧
        sample.InStep t.file st := by
  refine ⟨rfl, _, _, rfl, rfl, ?_⟩
  obtain ⟨st, hst, h⟩ := (acknowledged_inStep_iff sample (fun _ _ h => h)).1 changedHost _ {}
    .saveIfChanged _ rfl (by decide) trivial rfl
  cases hst
  exact h.mpr ⟨rfl, nofun⟩

/-- `Save` writes version 2 but keeps the hash of version 1. When the state is set back,
`SaveIfChanged` writes nothing. -/
theorem saved_state_set_back_not_written : ∃ s t st, run sample.step {} [(.newStore "p", {}),
        (.setState (some (sampleState 2)), {}), (.save, {}),
        (.setState (some (sampleState 1)), {})] = some s ∧
      sample.call s {} .saveIfChanged = some (t, []) ∧ t.store = some st ∧
      st.state = some (sampleState 1) ∧ sample.fileData t.file = some [2, 2] ∧
      ¬ sample.InStep t.file st := by
  refine ⟨_, _, _, rfl, rfl, rfl, rfl, rfl, ?_⟩
  rintro ⟨data, hst, hfile⟩
  cases hst
  cases hfile

end Serialization

end SingBox.Panel
