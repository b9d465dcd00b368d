import SingBox.Route.Remote

/-! The ETag of a remote rule-set against the content of its rules. A server that answers
with an ETag says that it delivered it with that content, so a request with the ETag must not
be made for other rules. -/

namespace SingBox.Route
open Lib Option Machine

/-- A body that came with an ETag, and the URL that it came from. -/
structure Delivery where
  urlHash : Sum256
  content : Bytes
  etag : Bytes
  deriving DecidableEq

def Answer.deliveries (urlHash : Sum256) : Answer → List Delivery
  | .ok etag (.ok content) => [{ urlHash, content, etag }]
  | _ => []

variable (L : Loader) (h : RemoteHost) (delivered : List Delivery)

def deliveredAfter : RemoteAction → List Delivery
  | .start tag urlHash cacheFile initial env =>
    let s : RemoteRuleSet := { set := { tag, rules := [] }, urlHash, cacheFile }
    if (s.prepare L env.validateRuleSetMetadataUpdate h.file initial).2 then
      env.answer.deliveries urlHash ++ delivered
    else delivered
  | .updateOnce env => (h.remote.elim [] fun s => env.answer.deliveries s.urlHash) ++ delivered
  | .incRef | .decRef | .cleanup | .close => delivered

/-- The box together with what the servers delivered to it. -/
def fetched (L : Loader) : Machine (RemoteHost × List Delivery) RemoteAction
  | (h, delivered), action =>
    (h.step L action).map fun h' => (h', deliveredAfter L h delivered action)

/-- The rules that loading the content gives. -/
def Loader.Builds (content : Bytes) (rules : List HeadlessRule) : Prop :=
  ∃ options, L.decode content = .ok options ∧
    newHeadlessRules L.networkManager "parse rule_set.rules." options 0 = .ok rules

/-- The ETag that the next request is made with came with the content of the rules. -/
def RemoteRuleSet.InStep (s : RemoteRuleSet) (delivered : List Delivery) : Prop :=
  s.lastEtag = [] ∨ ∃ content,
    { urlHash := s.urlHash, content, etag := s.lastEtag } ∈ delivered ∧ L.Builds content s.set.rules

/-- The copy in the cache file has an ETag that came with its content, from the URL of the
copy or, if it has none, from every URL; and its time is a time. -/
def CopyInStep (file : Option Bytes) (delivered : List Delivery) : Prop :=
  ∀ saved ∈ loadRuleSet file, saved.lastUpdated.unix ≠ zeroTime ∧ (saved.lastEtag = [] ∨
    ∀ urlHash : Sum256, saved.urlHash = [] ∨ saved.urlHash = urlHash.1 →
      { urlHash, content := saved.content, etag := saved.lastEtag } ∈ delivered)

/-! ## The conditions -/

/-- A body without an ETag comes only to a set without an ETag, a copy that is not modified
is not another URL's, and the clock does not read the zero time. -/
structure FetchSafe (s : RemoteRuleSet) (file : Option Bytes) (env : FetchEnv) : Prop where
  etag : ∀ content, env.answer = .ok [] (.ok content) → s.lastEtag = []
  copy : env.answer = .notModified → s.cacheFile = true → ∀ saved ∈ loadRuleSet file,
    saved.urlHash = [] ∨ saved.urlHash = s.urlHash.1
  clock : env.now ≠ zeroTime

def Answer.etag : Answer → Bytes
  | .ok etag _ => etag
  | _ => []

/-- The fetches are safe, and rules are dropped only from a set without an ETag. -/
def EtagSafe : RemoteAction → Prop
  | .start tag urlHash cacheFile initial env =>
    let s : RemoteRuleSet := { set := { tag, rules := [] }, urlHash, cacheFile }
    let prepared := s.prepare L env.validateRuleSetMetadataUpdate h.file initial
    prepared.2 = true → FetchSafe prepared.1 h.file env
  | .updateOnce env => ∀ s ∈ h.remote, FetchSafe s h.file env ∧
    (s.refs = 0 → s.lastEtag = [] ∧ env.answer.etag = [])
  | .cleanup => ∀ s ∈ h.remote, s.refs = 0 → s.lastEtag = []
  | .incRef | .decRef | .close => True

section Steps

variable {L : Loader} {s s' : RemoteRuleSet} {file : Option Bytes} {delivered more : List Delivery}
  {env : FetchEnv} {content : Bytes} {validate : String → RuleSetMetadata → Except String Unit}

lemma RemoteRuleSet.InStep.mono (h : s.InStep L delivered) : s.InStep L (more ++ delivered) := by
  obtain hempty | ⟨content, hmem, hbuilds⟩ := h
  · exact .inl hempty
  · exact .inr ⟨content, List.mem_append_right _ hmem, hbuilds⟩

lemma CopyInStep.mono (h : CopyInStep file delivered) : CopyInStep file (more ++ delivered) := by
  intro saved hsaved
  obtain ⟨htime, hempty | hmem⟩ := h saved hsaved
  · exact ⟨htime, .inl hempty⟩
  · exact ⟨htime, .inr fun urlHash hurl => List.mem_append_right _ (hmem urlHash hurl)⟩

lemma loadBytes_ok (h : s.loadBytes L validate content = .ok s') :
    L.Builds content s'.set.rules ∧ s' = { s with set := s'.set } := by
  unfold RemoteRuleSet.loadBytes at h
  cases hdec : L.decode content with
  | error err => simp [hdec, bind, Except.bind] at h
  | ok options =>
    cases hset : s.set.reloadRules L.networkManager validate options with
    | error err => simp [hdec, hset, bind, Except.bind] at h
    | ok set =>
      simp only [hdec, hset, bind, Except.bind, pure, Except.pure, Except.ok.injEq] at h
      subst h
      exact ⟨⟨options, hdec, (RuleSet.reloadRules_ok hset).1⟩, rfl⟩

/-- A copy is in step if its ETag came with its content from its URL. -/
theorem CopyInStep.saved {saved : SavedBinary} {urlHash : Sum256} (hurl : saved.urlHash = urlHash.1)
    (htime : saved.lastUpdated.unix ≠ zeroTime) (hetag : saved.lastEtag = [] ∨
      { urlHash, content := saved.content, etag := saved.lastEtag } ∈ delivered) :
    CopyInStep (some saved.marshalBinary) delivered := by
  intro saved' hsaved'
  obtain rfl := SavedBinary.eq_of_unmarshalBinary hsaved'
  refine ⟨htime, hetag.imp_right fun hmem urlHash' hurl' => ?_⟩
  have hself : urlHash = urlHash' := by
    rw [SavedBinary.truncated, hurl] at hurl'
    obtain hurl' | hurl' := hurl'
    · have := urlHash.2
      simp [hurl'] at this
    · exact Subtype.ext hurl'
  exact hself ▸ hmem

/-- What `fetch` does: it fails and changes nothing, nothing is modified but times and the
hash of the copy, or new content is loaded. -/
theorem fetch_cases (L : Loader) (env : FetchEnv) (s : RemoteRuleSet) (file : Option Bytes) :
    (∃ err, s.fetch L env file = (.error err, s, file)) ∨
    (env.answer = .notModified ∧ ∃ file', s.fetch L env file =
        (.ok (), { s with lastUpdated := env.now }, file') ∧
      (file' = file ∨ s.cacheFile ∧ ∃ saved ∈ loadRuleSet file, file' = some
        { saved with lastUpdated := ⟨env.now, 0⟩, urlHash := s.urlHash.1 }.marshalBinary)) ∨
    (∃ etag content s' file', env.answer = .ok etag (.ok content) ∧
      s.loadBytes L env.validateRuleSetMetadataUpdate content = .ok s' ∧
      s.fetch L env file = (.ok (), { s' with
        lastEtag := if etag ≠ [] then etag else s'.lastEtag, lastUpdated := env.now }, file') ∧
      (file' = file ∨ file' = some (SavedBinary.marshalBinary {
        content, lastUpdated := ⟨env.now, 0⟩, lastEtag := if etag ≠ [] then etag else s'.lastEtag
        urlHash := s'.urlHash.1 }))) := by
  unfold RemoteRuleSet.fetch
  cases hans : env.answer with
  | failed err | status err => exact .inl ⟨_, rfl⟩
  | notModified =>
    refine .inr (.inl ⟨rfl, ?_⟩)
    dsimp only
    split
    · next saved hcache hsaved =>
      refine ⟨_, rfl, ?_⟩
      split
      · exact .inr ⟨hcache, saved, hsaved, rfl⟩
      · exact .inl rfl
    · exact ⟨_, rfl, .inl rfl⟩
  | ok etag body =>
    cases body with
    | error err => exact .inl ⟨_, rfl⟩
    | ok content =>
      dsimp only
      cases hload : s.loadBytes L env.validateRuleSetMetadataUpdate content with
      | error err => exact .inl ⟨_, rfl⟩
      | ok s' =>
        refine .inr (.inr ⟨etag, content, s', _, rfl, hload, rfl, ?_⟩)
        split
        · exact .inr rfl
        · exact .inl rfl

lemma fetch_inStep (hs : s.InStep L delivered) (hcopy : CopyInStep file delivered)
    (hsafe : FetchSafe s file env) :
    (s.fetch L env file).2.1.InStep L (env.answer.deliveries s.urlHash ++ delivered) ∧
      CopyInStep (s.fetch L env file).2.2 (env.answer.deliveries s.urlHash ++ delivered) := by
  obtain ⟨err, hfetch⟩ | ⟨hans, file', hfetch, hfile⟩ |
    ⟨etag, content, s', file', hans, hload, hfetch, hfile⟩ := fetch_cases L env s file
  · rw [hfetch]
    exact ⟨hs.mono, hcopy.mono⟩
  · rw [hfetch]
    refine ⟨RemoteRuleSet.InStep.mono hs, ?_⟩
    obtain rfl | ⟨hcache, saved, hsaved, rfl⟩ := hfile
    · exact hcopy.mono
    · refine .saved rfl hsafe.clock ?_
      obtain ⟨-, hempty | hmem⟩ := hcopy saved hsaved
      · exact .inl hempty
      · refine .inr (List.mem_append_right _ (hmem s.urlHash ?_))
        exact hsafe.copy hans hcache saved hsaved
  · obtain ⟨hbuilds, heq⟩ := loadBytes_ok hload
    have hurl : s'.urlHash = s.urlHash := by rw [heq]
    -- the new ETag is none, or the one of the answer
    have hetag : (if etag ≠ [] then etag else s'.lastEtag) = [] ∨
        { urlHash := s'.urlHash, content, etag := if etag ≠ [] then etag else s'.lastEtag } ∈
          env.answer.deliveries s.urlHash ++ delivered := by
      by_cases hempty : etag = []
      · subst hempty
        have hnone : s'.lastEtag = [] := by
          rw [heq]
          exact hsafe.etag content hans
        exact .inl ((if_neg (not_not.mpr rfl)).trans hnone)
      · rw [if_pos hempty, hurl, hans]
        exact .inr (List.mem_append_left _ List.mem_cons_self)
    rw [hfetch]
    refine ⟨hetag.imp_right fun hmem => ⟨content, hmem, hbuilds⟩, ?_⟩
    obtain rfl | rfl := hfile
    · exact hcopy.mono
    · exact .saved rfl hsafe.clock hetag

lemma fetch_fields (L : Loader) (env : FetchEnv) (s : RemoteRuleSet) (file : Option Bytes) :
    (s.fetch L env file).2.1.refs = s.refs ∧ (s.lastEtag = [] → env.answer.etag = [] →
      (s.fetch L env file).2.1.lastEtag = []) := by
  obtain ⟨err, hfetch⟩ | ⟨-, file', hfetch, -⟩ | ⟨etag, content, s', file', hans, hload, hfetch, -⟩ :=
    fetch_cases L env s file
  · rw [hfetch]
    exact ⟨rfl, fun h _ => h⟩
  · rw [hfetch]
    exact ⟨rfl, fun h _ => h⟩
  · have heq := (loadBytes_ok hload).2
    rw [hfetch]
    refine ⟨by rw [heq], fun hnone hetag => ?_⟩
    rw [hans] at hetag
    obtain rfl : etag = [] := hetag
    rw [if_neg (not_not.mpr rfl), heq, hnone]

lemma cleanup_inStep (hs : s.InStep L delivered) (hrefs : s.refs = 0 → s.lastEtag = []) :
    s.cleanup.InStep L delivered := by
  unfold RemoteRuleSet.cleanup
  split
  · next hzero => exact .inl (hrefs hzero)
  · exact hs

variable (hcopy : CopyInStep file delivered)
include hcopy

lemma updateOnce_inStep (hs : s.InStep L delivered)
    (hsafe : FetchSafe s file env) (hrefs : s.refs = 0 → s.lastEtag = [] ∧ env.answer.etag = []) :
    (s.updateOnce L env file).1.InStep L (env.answer.deliveries s.urlHash ++ delivered) ∧
      CopyInStep (s.updateOnce L env file).2 (env.answer.deliveries s.urlHash ++ delivered) := by
  have hfetch := fetch_inStep hs hcopy hsafe
  obtain ⟨hcount, hnone⟩ := fetch_fields L env s file
  unfold RemoteRuleSet.updateOnce
  split
  · next heq =>
    rwa [heq] at hfetch
  · next heq =>
    rw [heq] at hfetch hcount hnone
    refine ⟨cleanup_inStep hfetch.1 fun hzero => ?_, hfetch.2⟩
    obtain ⟨hetag, hans⟩ := hrefs (hcount.symm.trans hzero)
    exact hnone hetag hans

/-- A set that restores the copy has its ETag and a time; else it is as before. -/
theorem restore_cases (L : Loader) (validate : String → RuleSetMetadata → Except String Unit)
    (s : RemoteRuleSet) :
    s.restore L validate file = s ∨ (s.restore L validate file).lastUpdated ≠ zeroTime ∧
      (s.restore L validate file).InStep L delivered ∧
      (s.restore L validate file).urlHash = s.urlHash := by
  unfold RemoteRuleSet.restore
  split
  · next saved _ hsaved =>
    split
    · exact .inl rfl
    · next hurl =>
      cases hload : s.loadBytes L validate saved.content with
      | error err => exact .inl rfl
      | ok s' =>
        obtain ⟨hbuilds, heq⟩ := loadBytes_ok hload
        obtain ⟨htime, hetag⟩ := hcopy saved hsaved
        have hself : s'.urlHash = s.urlHash := by rw [heq]
        refine .inr ⟨htime, hetag.imp_right fun hmem => ⟨saved.content, ?_, hbuilds⟩, hself⟩
        rw [hself]
        apply hmem
        rwa [not_and_or, Nat.not_lt, Nat.le_zero, List.length_eq_zero_iff, not_not] at hurl
  · exact .inl rfl

lemma prepare_inStep (L : Loader) (validate : String → RuleSetMetadata → Except String Unit)
    (hnone : s.lastEtag = [])
    (initial : Option (Except String Bytes)) :
    (s.prepare L validate file initial).1.InStep L delivered ∧
      (s.prepare L validate file initial).1.urlHash = s.urlHash := by
  have hrestored : (s.restore L validate file).InStep L delivered ∧
      (s.restore L validate file).urlHash = s.urlHash := by
    obtain heq | ⟨-, hstep, hurl⟩ := restore_cases hcopy L validate s
    · rw [heq]
      exact ⟨.inl hnone, rfl⟩
    · exact ⟨hstep, hurl⟩
  unfold RemoteRuleSet.prepare
  dsimp only
  split
  · next hzero =>
    -- nothing was restored, so there is no ETag
    obtain heq | ⟨htime, -⟩ := restore_cases hcopy L validate s
    · rw [heq] at hrestored ⊢
      split
      · next content =>
        cases hload : s.loadBytes L validate content with
        | error err => exact hrestored
        | ok s' =>
          have heq' := (loadBytes_ok hload).2
          refine ⟨.inl ?_, ?_⟩
          · rwa [heq']
          · rw [heq']
      · exact hrestored
    · exact absurd hzero htime
  · exact hrestored

lemma startContext_inStep (hnone : s.lastEtag = []) (initial : Option (Except String Bytes))
    (hsafe : (s.prepare L env.validateRuleSetMetadataUpdate file initial).2 →
      FetchSafe (s.prepare L env.validateRuleSetMetadataUpdate file initial).1 file env) :
    let delivered' := if (s.prepare L env.validateRuleSetMetadataUpdate file initial).2 then
      env.answer.deliveries s.urlHash ++ delivered else delivered
    (s.startContext L env file initial).2.1.InStep L delivered' ∧
      CopyInStep (s.startContext L env file initial).2.2 delivered' := by
  obtain ⟨hprep, hurl⟩ := prepare_inStep hcopy L env.validateRuleSetMetadataUpdate hnone initial
  unfold RemoteRuleSet.startContext
  cases hp : s.prepare L env.validateRuleSetMetadataUpdate file initial with
  | mk s' fetches =>
    rw [hp] at hprep hurl hsafe
    cases fetches with
    | false => exact ⟨hprep, hcopy⟩
    | true =>
      have hfetch := fetch_inStep hprep hcopy (hsafe rfl)
      dsimp only at hurl hfetch ⊢
      rw [hurl] at hfetch
      rw [if_pos rfl]
      split
      · next heq =>
        rwa [heq] at hfetch
      · exact hfetch

end Steps

/-- The set and the copy are in step. -/
structure EtagSound (L : Loader) (t : RemoteHost × List Delivery) : Prop where
  remote : ∀ s ∈ t.1.remote, s.InStep L t.2
  copy : CopyInStep t.1.file t.2

variable {action : RemoteAction}

lemma EtagSound.step {L : Loader} {t u : RemoteHost × List Delivery}
    (ht : EtagSound L t) (hsafe : EtagSafe L t.1 action) (hu : fetched L t action = some u) :
    EtagSound L u := by
  obtain ⟨h, delivered⟩ := t
  obtain ⟨h', hstep, rfl⟩ := map_eq_some_iff.mp hu
  have hother {s} (hs : s.InStep L delivered) :
      EtagSound L ({ h with remote := some s }, delivered) := by
    refine ⟨fun s' hs' => ?_, ht.copy⟩
    obtain rfl := some.inj hs'
    exact hs
  cases action with
  | start tag urlHash cacheFile initial env =>
    obtain ⟨-, hstep⟩ := ite_none_right_eq_some.mp hstep
    have hstart := startContext_inStep ht.copy rfl initial hsafe
    split at hstep
    · next s file heq =>
      cases hstep
      rw [heq] at hstart
      refine ⟨fun s' hs' => ?_, hstart.2⟩
      obtain rfl := some.inj hs'
      exact hstart.1
    · next file heq =>
      cases hstep
      rw [heq] at hstart
      exact ⟨nofun, hstart.2⟩
  | updateOnce env =>
    obtain ⟨s, hs, rfl⟩ := map_eq_some_iff.mp hstep
    obtain ⟨hfetch, hrefs⟩ := hsafe s hs
    have hupd := updateOnce_inStep ht.copy (ht.remote s hs) hfetch hrefs
    have hdeliv : deliveredAfter L h delivered (.updateOnce env) =
        env.answer.deliveries s.urlHash ++ delivered := by
      simp [deliveredAfter, mem_def.mp hs]
    rw [hdeliv]
    refine ⟨fun s' hs' => ?_, hupd.2⟩
    obtain rfl := some.inj hs'
    exact hupd.1
  | incRef =>
    obtain ⟨s, hs, rfl⟩ := map_eq_some_iff.mp hstep
    exact hother (ht.remote s hs)
  | decRef =>
    obtain ⟨s, hs, hstep⟩ := bind_eq_some_iff.mp hstep
    obtain ⟨-, hstep⟩ := ite_none_left_eq_some.mp hstep
    cases hstep
    exact hother (ht.remote s hs)
  | cleanup =>
    obtain ⟨s, hs, rfl⟩ := map_eq_some_iff.mp hstep
    exact hother (cleanup_inStep (ht.remote s hs) (hsafe s hs))
  | close =>
    obtain ⟨s, hs, rfl⟩ := map_eq_some_iff.mp hstep
    exact ⟨nofun, ht.copy⟩

/-- From a copy that is in step, a run with these conditions asks only with an ETag that
came with the content of the rules, and an answer that nothing was modified leaves a set that
is in use with the rules of that content. -/
theorem etag_inStep_of_safe_run (L : Loader) (h : RemoteHost) (delivered : List Delivery)
    (hdown : h.remote = none) (hcopy : CopyInStep h.file delivered) (t : RemoteHost × List Delivery)
    (ht : Reaches (fetched L) (fun t => EtagSafe L t.1) (h, delivered) t) :
    ∀ s ∈ t.1.remote, s.InStep L t.2 ∧ ∀ env, env.answer = .notModified → s.refs ≠ 0 →
      s.lastEtag = [] ∨ ∃ content, { urlHash := s.urlHash, content, etag := s.lastEtag } ∈ t.2 ∧
        L.Builds content (s.updateOnce L env t.1.file).1.set.rules := by
  have hsound : EtagSound L t := by
    refine ht.invariant (P := EtagSound L) ⟨fun s hs => ?_, hcopy⟩ fun hsafe hu hs => hs.step hsafe hu
    simp [hdown] at hs
  intro s hs
  refine ⟨hsound.remote s hs, fun env hans hrefs => ?_⟩
  have hset : (s.updateOnce L env t.1.file).1.set = s.set := by
    unfold RemoteRuleSet.updateOnce
    obtain ⟨err, hfetch⟩ | ⟨-, file', hfetch, -⟩ | ⟨etag, content, s', file', hok, -⟩ :=
      fetch_cases L env s t.1.file
    · rw [hfetch]
    · rw [hfetch]
      simp [RemoteRuleSet.cleanup, if_neg hrefs]
    · simp [hans] at hok
  rw [hset]
  exact hsound.remote s hs

/-! ## Runs -/

/-- Content with a rule for every byte. -/
def sampleLoader : Loader where
  decode content := .ok (content.map fun _ => .default { port := some fun _ => true })
  networkManager := false

def sampleHash : Sum256 := ⟨List.replicate 32 7, rfl⟩

def sampleEnv (answer : Answer) : FetchEnv :=
  { answer, validateRuleSetMetadataUpdate := fun _ _ => .ok (), now := 1, saves := true }

/-- The start fetches one rule with the ETag 1. -/
def sampleStart : RemoteAction := .start "set" sampleHash true none (sampleEnv (.ok [1] (.ok [0])))

def checksFetch (s : RemoteRuleSet) (file : Option Bytes) (env : FetchEnv) : Bool :=
  env.now != zeroTime && match env.answer with
    | .ok [] (.ok _) => s.lastEtag == []
    | .notModified => !s.cacheFile || (loadRuleSet file).all fun saved =>
      saved.urlHash == [] || saved.urlHash == s.urlHash.1
    | _ => true

lemma fetchSafe_of_checksFetch {s : RemoteRuleSet} {file : Option Bytes} {env : FetchEnv}
    (h : checksFetch s file env) : FetchSafe s file env := by
  obtain ⟨hclock, hans⟩ := Bool.and_eq_true_iff.mp h
  refine ⟨fun content heq => ?_, fun heq hcache saved hsaved => ?_, bne_iff_ne.mp hclock⟩
  · rw [heq] at hans
    exact beq_iff_eq.mp hans
  · simp only [heq, hcache, Bool.not_true, Bool.false_or, mem_def.mp hsaved,
      all_some, Bool.or_eq_true, beq_iff_eq] at hans
    exact hans

def checksEtag : RemoteAction → Bool
  | .start tag urlHash cacheFile initial env =>
    let s : RemoteRuleSet := { set := { tag, rules := [] }, urlHash, cacheFile }
    let prepared := s.prepare L env.validateRuleSetMetadataUpdate h.file initial
    !prepared.2 || checksFetch prepared.1 h.file env
  | .updateOnce env => h.remote.all fun s => checksFetch s h.file env && s.refs != 0
  | .cleanup => h.remote.all fun s => s.refs != 0
  | .incRef | .decRef | .close => true

lemma etagSafe_of_checksEtag {L : Loader} {h : RemoteHost}
    (hchecks : checksEtag L h action) : EtagSafe L h action := by
  cases action with
  | start tag urlHash cacheFile initial env =>
    intro hfetch
    simp only [checksEtag, Bool.or_eq_true, Bool.not_eq_true'] at hchecks
    obtain hchecks | hchecks := hchecks
    · exact absurd hfetch (Bool.eq_false_iff.mp hchecks)
    · exact fetchSafe_of_checksFetch hchecks
  | updateOnce env =>
    intro s hs
    simp only [checksEtag, mem_def.mp hs, all_some, Bool.and_eq_true, bne_iff_ne] at hchecks
    exact ⟨fetchSafe_of_checksFetch hchecks.1, fun hzero => absurd hzero hchecks.2⟩
  | cleanup =>
    intro s hs hzero
    simp only [checksEtag, mem_def.mp hs, all_some, bne_iff_ne] at hchecks
    exact absurd hzero hchecks
  | incRef | decRef | close => trivial

/-- A set in use gets two rules with a new ETag, which the next request asks with. -/
theorem etag_inStep_of_update : ∃ t s, run (fetched sampleLoader) ({}, []) [sampleStart, .incRef,
        .updateOnce (sampleEnv (.ok [2] (.ok [0, 0])))] = some t ∧ t.1.remote = some s ∧
      s.lastEtag = [2] ∧ s.InStep sampleLoader t.2 := by
  refine ⟨_, _, run_get (fun t => checksEtag sampleLoader t.1) (by decide),
    eq_some_of_isSome (by decide), by decide, ?_⟩
  exact (etag_inStep_of_safe_run sampleLoader {} [] rfl nofun _
    (Reaches.runChecked (fun _ _ => etagSafe_of_checksEtag) .start
      (eq_some_of_isSome _)) _ (eq_some_of_isSome _)).1

/-- A body without an ETag leaves the set with the ETag of the rules before it, and a set
that no rule refers to loses its rules and keeps the ETag. -/
theorem etag_of_earlier_content : (∃ t s, run (fetched sampleLoader) ({}, []) [sampleStart, .incRef,
        .updateOnce (sampleEnv (.ok [] (.ok [0, 0])))] = some t ∧ t.1.remote = some s ∧
      s.lastEtag = [1] ∧ s.set.rules.length = 2 ∧ ¬ s.InStep sampleLoader t.2) ∧
    ((run (fetched sampleLoader) ({}, []) [sampleStart, .cleanup, .incRef,
      .updateOnce (sampleEnv .notModified)]).any fun t => t.1.remote.any fun s =>
        s.lastEtag == [1] && s.set.rules.isEmpty && s.refs == 1) = true := by
  refine ⟨?_, by decide⟩
  have hrun : ((run (fetched sampleLoader) ({}, []) [sampleStart, .incRef,
      .updateOnce (sampleEnv (.ok [] (.ok [0, 0])))]).any fun t => t.1.remote.any (fun s =>
        s.lastEtag == [1] && s.set.rules.length == 2) &&
        t.2.all fun delivery => delivery.etag != [1] || delivery.content == [0]) := by
    decide
  obtain ⟨t, ht, h⟩ := (any_eq_true ..).mp hrun
  obtain ⟨hs, hdeliv⟩ := Bool.and_eq_true_iff.mp h
  obtain ⟨s, hs, hetag⟩ := (any_eq_true ..).mp hs
  simp only [Bool.and_eq_true, beq_iff_eq] at hetag
  refine ⟨t, s, ht, hs, hetag.1, hetag.2, ?_⟩
  rintro (hempty | ⟨content, hmem, options, hdec, hrules⟩)
  · rw [hempty] at hetag
    cases hetag.1
  · -- the ETag came with a single rule
    have hcontent := List.all_eq_true.mp hdeliv _ hmem
    simp only [hetag.1, bne_self_eq_false, Bool.false_or, beq_iff_eq] at hcontent
    subst hcontent
    obtain rfl := Except.ok.inj hdec
    have hlen : s.set.rules.length = 1 := congrArg List.length (Except.ok.inj hrules).symm
    omega

end SingBox.Route
