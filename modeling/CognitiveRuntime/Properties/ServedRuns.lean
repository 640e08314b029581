import CognitiveRuntime.Data.Front
import CognitiveRuntime.Mcp.Server
import CognitiveRuntime.Properties.PrivateShelf
import CognitiveRuntime.Properties.Snapshotless

/-!
# Runs behind the server

The server is a front of the run store: a request sends the store one
call at most, in the name of the principal its token resolves to. What
the store keeps to its histories the server keeps to its own: a run is
read by the principal that compiled it and by nobody else, and its text
is that of the payload the compile answered.
-/

namespace CognitiveRuntime

open Fallible Front PrivateView
open PyStr (ofString)

section Serving

variable [Sha256] [TextTables] [LaxInput] {Time : Type}

section Front

variable (settings : ServerSettings Time)

/-! ## The server as a front -/

/-- The call a request sends to the store. -/
def ServerCall.storeCall (call : ServerCall Time) : Option (StoreCall Time Entries) :=
  match call.request with
  | .stateless _ => none
  | .compileRuntime mission taskType snapshot expected =>
      match call.compileBundle mission taskType snapshot expected with
      | .error _ => none
      | .ok (pack, bundle) => (call.owner settings).map fun owner =>
          .create owner (runPayload pack bundle) call.drawn call.now
  | .runResource runId => (call.owner settings).map fun owner => .require runId owner call.now

/-- The fields a compile answers. -/
def runAnswer (payload : Entries) (runId resourceUri : String) : Entries :=
  payload ++ [("run_id", .str runId), ("resource_uri", .str resourceUri)]

/-- The answer to a request, once the store has replied. -/
def ServerCall.respond (call : ServerCall Time) (reply : Option (StoreReply Time Entries)) :
    Except ServerFault ServerAnswer :=
  match call.request with
  | .stateless request => settings.answer call request
  | .compileRuntime mission taskType snapshot expected => do
      let (pack, bundle) ← call.compileBundle mission taskType snapshot expected
      match reply with
      | some (.created record) => .ok (.result (runAnswer (runPayload pack bundle) record.runId
          record.resourceUri))
      | _ => .error (.toolError "authenticated principal required")
  | .runResource runId =>
      match reply with
      | some (.required (.ok record)) => .ok (.text (Json.obj record.payload).dumpsIndented)
      | some (.required (.error error)) => .error (.runNotFound error)
      | _ => .error (.runNotFound { message := "run not found", path := runId })

/-- The front the server is. -/
def ServerSettings.front : Handler (ServerCall Time) (StoreCall Time Entries)
    (StoreReply Time Entries) (Except ServerFault ServerAnswer) where
  send := ServerCall.storeCall settings
  respond := ServerCall.respond settings

variable [LE Time] [DecidableLE Time] [Add Time]

theorem Server.step_eq (s : ServerStore Time) (call : ServerCall Time) :
    Server.step settings s call
      = settings.front.step (fun s c => RunStore.step settings.store s c) s call := by
  cases hrequest : call.request with
  | stateless request =>
      simp only [Server.step, Handler.step, ServerSettings.front, ServerCall.storeCall,
        ServerCall.respond, hrequest]
  | compileRuntime mission taskType snapshot expected =>
      simp only [Server.step, Server.compileRuntime, Handler.step, ServerSettings.front,
        ServerCall.storeCall, ServerCall.respond, hrequest]
      cases call.compileBundle mission taskType snapshot expected with
      | error fault => simp only [error_bind]
      | ok compiled =>
          simp only [ok_bind]
          cases call.owner settings with
          | none => rfl
          | some owner =>
              simp only [Option.map_some, RunStore.step]
              cases s.create settings.store owner (runPayload compiled.1 compiled.2) call.drawn
                call.now <;> rfl
  | runResource runId =>
      simp only [Server.step, Server.runResource, Handler.step, ServerSettings.front,
        ServerCall.storeCall, ServerCall.respond, hrequest]
      cases call.owner settings with
      | none => rfl
      | some owner =>
          simp only [Option.map_some, RunStore.step]
          cases s.requireRun runId owner call.now with
          | error e => rfl
          | ok outcome =>
              obtain ⟨s', outcome⟩ := outcome
              cases outcome <;> rfl

omit [Sha256] [TextTables] [LaxInput] in
theorem runStore_run_eq (calls : List (StoreCall Time Entries)) (s : ServerStore Time) :
    RunStore.run settings.store calls s
      = runAll (fun s c => RunStore.step settings.store s c) calls s := by
  induction calls generalizing s with
  | nil => rfl
  | cons call rest ih => simp only [RunStore.run, runAll, ih]

theorem Server.run_eq_runAll (calls : List (ServerCall Time)) (s : ServerStore Time) :
    Server.run settings calls s = runAll (Server.step settings) calls s := by
  induction calls generalizing s with
  | nil => rfl
  | cons call rest ih => simp only [Server.run, runAll, ih]

/-- A run of the server is a run of the store on the calls it is sent. -/
theorem Server.run_eq (calls : List (ServerCall Time)) (s : ServerStore Time) :
    Server.run settings calls s
      = (RunStore.run settings.store (calls.filterMap (ServerCall.storeCall settings)) s).map
          fun e => (e.1, settings.front.weave calls e.2) := by
  have hstep : Server.step settings
      = settings.front.step fun s c => RunStore.step settings.store s c :=
    funext fun s => funext fun call => Server.step_eq settings s call
  rw [Server.run_eq_runAll, hstep, Handler.runAll_step, runStore_run_eq]
  rfl

end Front

/-! ## Histories of the server -/

section Histories

variable {settings : ServerSettings Time}

/-- No two runs are given one id. -/
def FreshRuns (settings : ServerSettings Time) (calls : List (ServerCall Time)) : Prop :=
  FreshIds (calls.filterMap (ServerCall.storeCall settings))

/-- A run that is sent to the store was compiled for the caller. -/
theorem ServerCall.compiled_of_create {call : ServerCall Time} {owner runId : String}
    {payload : Entries} {now : Time}
    (h : call.storeCall settings = some (.create owner payload runId now)) :
    call.owner settings = some owner ∧ call.drawn = runId ∧ call.now = now
      ∧ ∃ mission taskType snapshot expected pack bundle,
        call.request = .compileRuntime mission taskType snapshot expected
          ∧ call.compileBundle mission taskType snapshot expected = .ok (pack, bundle)
          ∧ payload = runPayload pack bundle := by
  unfold ServerCall.storeCall at h
  split at h
  · cases h
  · next mission taskType snapshot expected hrequest =>
      split at h
      · cases h
      · next pack bundle hbundle =>
          obtain ⟨_, howner, hcall⟩ := Option.map_eq_some_iff.mp h
          cases hcall
          exact ⟨howner, rfl, rfl, mission, taskType, snapshot, expected, pack, bundle, hrequest,
            hbundle, rfl⟩
  · obtain ⟨_, -, hcall⟩ := Option.map_eq_some_iff.mp h
    cases hcall

variable [LE Time] [DecidableLE Time] [Add Time]

/-- A compile whose run is stored. -/
theorem Server.step_compile {call : ServerCall Time} {mission taskType : String}
    {snapshot : Option Payload} {expected : Option String} {pack : ServedPack}
    {bundle : RuntimeBundle} {owner : String} {s s' : ServerStore Time}
    {record : RunRecord Time Entries}
    (hrequest : call.request = .compileRuntime mission taskType snapshot expected)
    (hbundle : call.compileBundle mission taskType snapshot expected = .ok (pack, bundle))
    (howner : call.owner settings = some owner)
    (hcreate : s.create settings.store owner (runPayload pack bundle) call.drawn call.now
      = .ok (s', record)) :
    Server.step settings s call
      = .ok (s', .ok (.result (runAnswer (runPayload pack bundle) record.runId
        record.resourceUri))) := by
  simp only [Server.step, hrequest, Server.compileRuntime, hbundle, howner, hcreate, ok_bind]
  rfl

theorem Server.run_pair {call call' : ServerCall Time} {s s₁ s₂ : ServerStore Time}
    {answer answer' : Except ServerFault ServerAnswer}
    (h : Server.step settings s call = .ok (s₁, answer))
    (h' : Server.step settings s₁ call' = .ok (s₂, answer')) :
    Server.run settings [call, call'] s = .ok (s₂, [answer, answer']) := by
  simp only [Server.run, h, h', ok_bind]

/-- The answer to a compile whose run is stored. -/
theorem Server.answer_of_create {call : ServerCall Time} {owner runId : String}
    {payload : Entries} {now : Time}
    (h : call.storeCall settings = some (.create owner payload runId now))
    {s s' : ServerStore Time} {answer : Except ServerFault ServerAnswer}
    (hstep : Server.step settings s call = .ok (s', answer)) :
    answer = .ok (.result (runAnswer payload runId ("l9://runs/" ++ runId))) := by
  obtain ⟨-, -, -, mission, taskType, snapshot, expected, pack, bundle, hrequest, hbundle, rfl⟩ :=
    ServerCall.compiled_of_create h
  have hsend : settings.front.send call = some (.create owner (runPayload pack bundle) runId now) :=
    h
  rw [Server.step_eq, Handler.step, hsend] at hstep
  simp only [RunStore.step, RunStore.create, bind_eq_ok, Prod.exists] at hstep
  obtain ⟨_, reply, ⟨_, record, ⟨_, -, hcreated⟩, hreply⟩, hdone⟩ := hstep
  obtain ⟨-, rfl⟩ := Prod.mk.inj (Except.ok.inj hcreated)
  obtain ⟨-, rfl⟩ := Prod.mk.inj (Except.ok.inj hreply)
  obtain ⟨-, rfl⟩ := Prod.mk.inj (Except.ok.inj hdone)
  simp only [ServerSettings.front, ServerCall.respond, hrequest, hbundle, ok_bind]
  rfl

/-- The server runs through every history, and leaves what the store
leaves. -/
theorem Server.run_consistent (hmax : 1 ≤ settings.store.maxEntries)
    (calls : List (ServerCall Time)) (hfresh : FreshRuns settings calls) :
    ∃ s replies,
      RunStore.run settings.store (calls.filterMap (ServerCall.storeCall settings)) .empty
        = .ok (s, replies)
      ∧ Server.run settings calls .empty = .ok (s, settings.front.weave calls replies)
      ∧ Consistent settings.store (calls.filterMap (ServerCall.storeCall settings)) replies s := by
  obtain ⟨s, replies, hrun, hconsistent⟩ := CognitiveRuntime.run_consistent hmax _ hfresh
  refine ⟨s, replies, hrun, ?_, hconsistent⟩
  rw [Server.run_eq, hrun]
  rfl

/-- A read of a run, by a principal. -/
theorem Server.step_runResource {calls : List (StoreCall Time Entries)}
    {replies : List (StoreReply Time Entries)} {s : ServerStore Time}
    (h : Consistent settings.store calls replies s) {call : ServerCall Time}
    {runId owner : String} (hrequest : call.request = .runResource runId)
    (howner : call.owner settings = some owner) :
    (∀ record, s.items.lookup runId = some record → record.principal = owner →
        ¬ record.expiresAt ≤ call.now →
        ∃ s', Server.step settings s call
          = .ok (s', .ok (.text (Json.obj record.payload).dumpsIndented)))
      ∧ (¬ Readable s runId owner call.now → Server.step settings s call
          = .ok (s.evict call.now,
            .error (.runNotFound { message := "run not found", path := runId }))) := by
  simp only [Server.step, hrequest, Server.runResource, howner]
  constructor
  · intro record hrecord hown hlive
    rw [requireRun_eq (get_of_readable h.represented hrecord hown hlive).2]
    exact ⟨_, rfl⟩
  · intro hhidden
    rw [requireRun_eq (get_of_not_readable hhidden)]
    rfl

/-! ### What a history of the server serves -/

/-- The fields a read of a run can come from: a compile by the same
principal, not expired, that was answered with this id. -/
structure CompiledRun (settings : ServerSettings Time)
    (history : List (ServerCall Time × Except ServerFault ServerAnswer)) (call : ServerCall Time)
    (runId : String) (payload : Entries) (earlier : ServerCall Time) : Prop where
  same_owner : earlier.owner settings = call.owner settings
  is_compile : ∃ mission taskType snapshot expected pack bundle,
    earlier.request = .compileRuntime mission taskType snapshot expected
      ∧ earlier.compileBundle mission taskType snapshot expected = .ok (pack, bundle)
      ∧ payload = runPayload pack bundle
  answered : (earlier, .ok (.result (runAnswer payload runId ("l9://runs/" ++ runId)))) ∈ history
  live : ¬ earlier.now + settings.store.ttlSeconds ≤ call.now

/-- How a call is served after a history. -/
structure ServesOwn [DecimalFloat] (settings : ServerSettings Time)
    (history : List (ServerCall Time × Except ServerFault ServerAnswer)) (call : ServerCall Time)
    (s s' : ServerStore Time) (answer : Except ServerFault ServerAnswer) : Prop where
  stateless : ∀ request, call.request = .stateless request → s' = s
  /-- Who cannot be identified neither reads nor leaves a run. -/
  unidentified : call.owner settings = none → s' = s
    ∧ (∀ runId, call.request = .runResource runId →
        answer = .error (.runNotFound { message := "run not found", path := runId }))
    ∧ ∀ mission taskType snapshot expected,
        call.request = .compileRuntime mission taskType snapshot expected →
        ∃ fault, answer = .error fault
  /-- The owner changes nothing in what a compile answers. -/
  compiles : ∀ mission taskType snapshot expected,
    call.request = .compileRuntime mission taskType snapshot expected →
    ∀ owner, call.owner settings = some owner →
      answer = (call.compileBundle mission taskType snapshot expected).map fun compiled =>
        .result (runAnswer (runPayload compiled.1 compiled.2) call.drawn
          ("l9://runs/" ++ call.drawn))
  /-- The text of a run is that of the payload its compile answered. -/
  reads : ∀ runId content, call.request = .runResource runId → answer = .ok content →
    ∃ payload earlier, CompiledRun settings history call runId payload earlier
      ∧ content = .text (Json.obj payload).dumpsIndented
      ∧ ((Json.obj payload).floatFree = true → (Json.obj payload).distinctKeys = true →
        JsonReader.loads (Json.obj payload).dumpsIndented.toList
          = some (Json.obj payload).normalize.toPy)
  /-- Every other run, for whatever reason, is not found. -/
  hides : ∀ runId owner, call.request = .runResource runId → call.owner settings = some owner →
    (Readable s runId owner call.now → ∃ content, answer = .ok content)
      ∧ (¬ Readable s runId owner call.now →
        answer = .error (.runNotFound { message := "run not found", path := runId }))

/-- A compile, by a principal: the store has no part in its answer. -/
theorem Server.answer_of_compile {call : ServerCall Time} {mission taskType : String}
    {snapshot : Option Payload} {expected : Option String} {owner : String}
    (hrequest : call.request = .compileRuntime mission taskType snapshot expected)
    (howner : call.owner settings = some owner) {s s' : ServerStore Time}
    {answer : Except ServerFault ServerAnswer}
    (hstep : Server.step settings s call = .ok (s', answer)) :
    answer = (call.compileBundle mission taskType snapshot expected).map fun compiled =>
      .result (runAnswer (runPayload compiled.1 compiled.2) call.drawn
        ("l9://runs/" ++ call.drawn)) := by
  cases hbundle : call.compileBundle mission taskType snapshot expected with
  | error fault =>
      simp only [Server.step, hrequest, Server.compileRuntime, hbundle] at hstep
      obtain ⟨-, rfl⟩ := Prod.mk.inj (Except.ok.inj hstep)
      rfl
  | ok compiled =>
      have hsent : call.storeCall settings
          = some (.create owner (runPayload compiled.1 compiled.2) call.drawn call.now) := by
        simp only [ServerCall.storeCall, hrequest, hbundle, howner, Option.map_some]
      exact Server.answer_of_create hsent hstep

/-- Without a principal a call leaves the store as it was. -/
theorem Server.step_unidentified {call : ServerCall Time} (h : call.owner settings = none)
    {s s' : ServerStore Time} {answer : Except ServerFault ServerAnswer}
    (hstep : Server.step settings s call = .ok (s', answer)) :
    s' = s
      ∧ (∀ runId, call.request = .runResource runId →
          answer = .error (.runNotFound { message := "run not found", path := runId }))
      ∧ ∀ mission taskType snapshot expected,
          call.request = .compileRuntime mission taskType snapshot expected →
          ∃ fault, answer = .error fault := by
  cases hrequest : call.request with
  | stateless request =>
      simp only [Server.step, hrequest] at hstep
      obtain ⟨rfl, -⟩ := Prod.mk.inj (Except.ok.inj hstep)
      exact ⟨rfl, fun _ hother => (nomatch hother), fun _ _ _ _ hother => (nomatch hother)⟩
  | compileRuntime mission taskType snapshot expected =>
      have hfault : ∃ fault, s' = s ∧ answer = .error fault := by
        simp only [Server.step, hrequest, Server.compileRuntime, h] at hstep
        split at hstep
        · obtain ⟨rfl, rfl⟩ := Prod.mk.inj (Except.ok.inj hstep)
          exact ⟨_, rfl, rfl⟩
        · obtain ⟨rfl, rfl⟩ := Prod.mk.inj (Except.ok.inj hstep)
          exact ⟨_, rfl, rfl⟩
      obtain ⟨fault, rfl, rfl⟩ := hfault
      exact ⟨rfl, fun _ hother => (nomatch hother), fun _ _ _ _ _ => ⟨fault, rfl⟩⟩
  | runResource runId =>
      simp only [Server.step, hrequest, Server.runResource, h] at hstep
      obtain ⟨rfl, rfl⟩ := Prod.mk.inj (Except.ok.inj hstep)
      refine ⟨rfl, fun other hother => ?_, fun _ _ _ _ hother => (nomatch hother)⟩
      cases hother
      rfl

/-- A readable run was compiled, earlier in the history, for its reader. -/
theorem CompiledRun.of_record {calls : List (ServerCall Time)} {s : ServerStore Time}
    {answers : List (Except ServerFault ServerAnswer)}
    {replies : List (StoreReply Time Entries)}
    (hrun : Server.run settings calls .empty = .ok (s, answers))
    (h : Consistent settings.store (calls.filterMap (ServerCall.storeCall settings)) replies s)
    {call : ServerCall Time} {runId owner : String} (howner : call.owner settings = some owner)
    {record : RunRecord Time Entries} (hrecord : s.items.lookup runId = some record)
    (hown : record.principal = owner) (hlive : ¬ record.expiresAt ≤ call.now) :
    ∃ earlier, CompiledRun settings (calls.zip answers) call runId record.payload earlier := by
  obtain ⟨hid, principal, payload, rid, now, hmem, rfl⟩ := h.created runId record hrecord
  obtain rfl : rid = runId := hid
  obtain rfl : principal = owner := hown
  obtain ⟨earlier, hearlier, hsent⟩ := List.mem_filterMap.mp hmem
  obtain ⟨howner', -, rfl, hcompile⟩ := ServerCall.compiled_of_create hsent
  rw [Server.run_eq_runAll] at hrun
  obtain ⟨_, _, answer, hstep, hanswered⟩ := exists_step_of_mem hrun hearlier
  obtain rfl := Server.answer_of_create hsent hstep
  exact ⟨earlier,
    { same_owner := howner'.trans howner.symm
      is_compile := hcompile
      answered := hanswered
      live := hlive }⟩

/-- A call after a history is served from the caller's own runs. -/
theorem servesOwn_of_step [DecimalFloat] {calls : List (ServerCall Time)}
    {s s' : ServerStore Time} {answers : List (Except ServerFault ServerAnswer)}
    {replies : List (StoreReply Time Entries)}
    (hrun : Server.run settings calls .empty = .ok (s, answers))
    (h : Consistent settings.store (calls.filterMap (ServerCall.storeCall settings)) replies s)
    {call : ServerCall Time} {answer : Except ServerFault ServerAnswer}
    (hstep : Server.step settings s call = .ok (s', answer)) :
    ServesOwn settings (calls.zip answers) call s s' answer where
  stateless request hrequest := by
    simp only [Server.step, hrequest] at hstep
    exact (Prod.mk.inj (Except.ok.inj hstep)).1.symm
  unidentified howner := Server.step_unidentified howner hstep
  compiles _ _ _ _ hrequest _ howner := Server.answer_of_compile hrequest howner hstep
  reads runId content hrequest hanswer := by
    subst hanswer
    cases howner : call.owner settings with
    | none =>
        obtain ⟨-, hmissing, -⟩ := Server.step_unidentified howner hstep
        cases hmissing runId hrequest
    | some owner =>
        obtain ⟨hfound, hhidden⟩ := Server.step_runResource h hrequest howner
        by_cases hreadable : Readable s runId owner call.now
        · obtain ⟨record, hrecord, hown, hlive⟩ := hreadable
          obtain ⟨earlier, hcompiled⟩ :=
            CompiledRun.of_record hrun h howner hrecord hown hlive
          obtain ⟨_, hserved⟩ := hfound record hrecord hown hlive
          obtain ⟨-, hcontent⟩ := Prod.mk.inj (Except.ok.inj (hstep.symm.trans hserved))
          exact ⟨record.payload, earlier, hcompiled, Except.ok.inj hcontent,
            JsonReader.loads_dumpsIndented⟩
        · cases hstep.symm.trans (hhidden hreadable)
  hides runId owner hrequest howner := by
    obtain ⟨hfound, hhidden⟩ := Server.step_runResource h hrequest howner
    constructor
    · rintro ⟨record, hrecord, hown, hlive⟩
      obtain ⟨_, hserved⟩ := hfound record hrecord hown hlive
      obtain ⟨-, rfl⟩ := Prod.mk.inj (Except.ok.inj (hstep.symm.trans hserved))
      exact ⟨_, rfl⟩
    · intro hunreadable
      exact (Prod.mk.inj (Except.ok.inj (hstep.symm.trans (hhidden hunreadable)))).2

/-- After any history of calls with fresh run ids, a further call is
served from the caller's own runs. -/
theorem server_serves_own_runs [DecimalFloat] (settings : ServerSettings Time)
    (hmax : 1 ≤ settings.store.maxEntries) (history : List (ServerCall Time))
    (call : ServerCall Time) (hfresh : FreshRuns settings (history ++ [call])) :
    ∃ s answers s' answer, Server.run settings history .empty = .ok (s, answers)
      ∧ Server.step settings s call = .ok (s', answer)
      ∧ Server.run settings (history ++ [call]) .empty = .ok (s', answers ++ [answer])
      ∧ ServesOwn settings (history.zip answers) call s s' answer := by
  have hhistory : FreshRuns settings history := by
    unfold FreshRuns at hfresh ⊢
    rw [List.filterMap_append] at hfresh
    unfold FreshIds at hfresh ⊢
    rw [List.filterMap_append] at hfresh
    exact (List.nodup_append.mp hfresh).1
  obtain ⟨s, replies, -, hrun, hconsistent⟩ := Server.run_consistent hmax history hhistory
  obtain ⟨s', replies', -, hrun', -⟩ := Server.run_consistent hmax (history ++ [call]) hfresh
  have hstep : ∃ answer, Server.step settings s call = .ok (s', answer)
      ∧ settings.front.weave (history ++ [call]) replies'
        = settings.front.weave history replies ++ [answer] := by
    rw [Server.run_eq_runAll, runAll_append, ← Server.run_eq_runAll, hrun] at hrun'
    simp only [ok_bind, runAll, bind_eq_ok, Prod.exists] at hrun'
    obtain ⟨_, _, ⟨last, answer, hstep, hone⟩, hdone⟩ := hrun'
    obtain ⟨rfl, rfl⟩ := Prod.mk.inj (Except.ok.inj hone)
    obtain ⟨rfl, hanswers⟩ := Prod.mk.inj (Except.ok.inj hdone)
    exact ⟨answer, hstep, hanswers.symm⟩
  obtain ⟨answer, hstep, hanswers⟩ := hstep
  exact ⟨s, _, s', answer, hrun, hstep, hanswers ▸ hrun', servesOwn_of_step hrun hconsistent hstep⟩

omit [LE Time] [DecidableLE Time] [Add Time] in
/-- The id of a run is the one its call draws. -/
theorem ServerCall.drawn_storeCall {call : ServerCall Time} {sent : StoreCall Time Entries}
    {runId : String} (h : call.storeCall settings = some sent) (hdrawn : sent.drawn = some runId) :
    runId = call.drawn := by
  cases sent with
  | create owner payload rid now =>
      obtain ⟨-, rfl, -⟩ := ServerCall.compiled_of_create h
      exact (Option.some.inj hdrawn).symm
  | get _ _ _ => cases hdrawn
  | require _ _ _ => cases hdrawn
  | list _ _ => cases hdrawn

omit [LE Time] [DecidableLE Time] [Add Time] in
/-- Calls that draw different ids give no id twice. -/
theorem freshRuns_of_drawn {calls : List (ServerCall Time)}
    (h : (calls.map ServerCall.drawn).Nodup) : FreshRuns settings calls := by
  unfold FreshRuns FreshIds
  rw [List.filterMap_filterMap]
  refine (List.Pairwise.filterMap _ ?_ (List.pairwise_map.mp h))
  intro call call' hne runId hrun runId' hrun'
  obtain ⟨_, hsent, hdrawn⟩ := Option.bind_eq_some_iff.mp hrun
  obtain ⟨_, hsent', hdrawn'⟩ := Option.bind_eq_some_iff.mp hrun'
  rw [ServerCall.drawn_storeCall hsent hdrawn, ServerCall.drawn_storeCall hsent' hdrawn']
  exact hne

end Histories

/-! ## What others do -/

section Users

variable [Preorder Time] [DecidableLE Time] [Add Time] {settings : ServerSettings Time}

omit [Preorder Time] [DecidableLE Time] [Add Time] in
/-- A request reaches the store in the name of its own principal, at the
reading it took of the clock. -/
theorem ServerCall.principal_storeCall {call : ServerCall Time} {sent : StoreCall Time Entries}
    (h : call.storeCall settings = some sent) :
    call.owner settings = some sent.principal ∧ sent.now = call.now := by
  unfold ServerCall.storeCall at h
  split at h
  · cases h
  · split at h
    · cases h
    · obtain ⟨owner, howner, rfl⟩ := Option.map_eq_some_iff.mp h
      exact ⟨howner, rfl⟩
  · obtain ⟨owner, howner, rfl⟩ := Option.map_eq_some_iff.mp h
    exact ⟨howner, rfl⟩

/-- The requests of a principal. -/
def ServerCall.ownedBy (settings : ServerSettings Time) (principal : String)
    (call : ServerCall Time) : Bool :=
  decide (call.owner settings = some principal)

/-- Over the history no live run of the principal is taken for capacity. -/
def KeepsUser (settings : ServerSettings Time) (calls : List (ServerCall Time))
    (principal : String) : Prop :=
  KeepsRuns settings.store (calls.filterMap (ServerCall.storeCall settings)) principal

/-- Requests of different clients may interleave, the clock does not turn
back. -/
def InClockOrder (calls : List (ServerCall Time)) : Prop :=
  calls.Pairwise fun earlier later => earlier.now ≤ later.now

omit [DecidableLE Time] [Add Time] in
theorem InClockOrder.sent {calls : List (ServerCall Time)} (h : InClockOrder calls) :
    (calls.filterMap (ServerCall.storeCall settings)).Pairwise fun a b => a.now ≤ b.now := by
  refine List.Pairwise.filterMap _ ?_ h
  intro call call' hle sent hsent sent' hsent'
  rw [(ServerCall.principal_storeCall hsent).2, (ServerCall.principal_storeCall hsent').2]
  exact hle

/-- While there is room for all that is asked nobody loses a run. -/
theorem keepsUser_of_room (hmax : 1 ≤ settings.store.maxEntries) {calls : List (ServerCall Time)}
    (hfresh : FreshRuns settings calls) (h : calls.length ≤ settings.store.maxEntries)
    (principal : String) : KeepsUser settings calls principal :=
  keepsRuns_of_room hmax hfresh
    ((List.length_filterMap_le _ _).trans ((List.length_filterMap_le _ _).trans h))

/-- Two histories with the same requests of a principal answer it the
same, whatever the others do in either, as long as neither takes a live
run of the principal. -/
theorem server_users_isolated (settings : ServerSettings Time)
    (hmax : 1 ≤ settings.store.maxEntries) (principal : String)
    (calls calls' : List (ServerCall Time))
    (hfresh : FreshRuns settings calls) (hfresh' : FreshRuns settings calls')
    (hclock : InClockOrder calls) (hclock' : InClockOrder calls')
    (hkeeps : KeepsUser settings calls principal) (hkeeps' : KeepsUser settings calls' principal)
    (hown : calls.filter (ServerCall.ownedBy settings principal)
      = calls'.filter (ServerCall.ownedBy settings principal)) :
    ∃ s answers s' answers', Server.run settings calls .empty = .ok (s, answers)
      ∧ Server.run settings calls' .empty = .ok (s', answers')
      ∧ ownReplies (ServerCall.ownedBy settings principal) (calls.zip answers)
        = ownReplies (ServerCall.ownedBy settings principal) (calls'.zip answers') := by
  obtain ⟨s, replies, hstore, hrun, -⟩ := Server.run_consistent hmax calls hfresh
  obtain ⟨s', replies', hstore', hrun', -⟩ := Server.run_consistent hmax calls' hfresh'
  refine ⟨s, _, s', _, hrun, hrun', ?_⟩
  have hsends : ∀ call sent, settings.front.send call = some sent →
      ownedBy principal sent = call.ownedBy settings principal := by
    intro call sent hsent
    unfold CognitiveRuntime.ownedBy ServerCall.ownedBy
    rw [(ServerCall.principal_storeCall hsent).1]
    simp
  have hsent : (calls.filterMap settings.front.send).filter (ownedBy principal)
      = (calls'.filterMap settings.front.send).filter (ownedBy principal) := by
    rw [Handler.filterMap_send_filter hsends, hown, ← Handler.filterMap_send_filter hsends]
  have hreplies := histories_alike hmax hfresh hfresh' hclock.sent hclock'.sent hkeeps hkeeps'
    hsent hstore hstore'
  have hlength := runAll_length ((runStore_run_eq settings _ _).symm.trans hstore)
  have hlength' := runAll_length ((runStore_run_eq settings _ _).symm.trans hstore')
  rw [Handler.ownReplies_weave hsends calls replies hlength,
    Handler.ownReplies_weave hsends calls' replies' hlength', hown]
  exact congrArg (settings.front.weave _) hreplies

end Users

end Serving

/-! ## Alice and Bob -/

section Demo

/-- The shipped pack, with a provenance. -/
def servedShippedPack : ServedPack where
  toRuntimePack := shippedPack
  packRef := "/srv/pack"
  root := "/srv/pack"
  fileDigests := []

/-- A hosted server with room for four runs. -/
def hostedServer : ServerSettings Nat where
  store := { maxEntries := 4, ttlSeconds := 60 }
  serverName := "l9-cognitive-runtime"
  toolNamePrefix := ""
  transport := "streamable_http"
  transport_supported := by decide
  hostedAuth := true
  pack := servedShippedPack
  packRef := "pack"

/-- A token of one client and issuer, for a subject. -/
def tokenOf (subject : String) : AccessToken where
  token := ofString subject
  clientId := ofString "client"
  scopes := []
  expiresAt := none
  resource := ofString "resource"
  subject := some (ofString subject)
  claims := [(ofString "iss", .str (ofString "issuer"))]

def hostedCall (subject : String) (request : ServerRequest) (drawn : String) (now : Nat) :
    ServerCall Nat where
  request := request
  token := some (tokenOf subject)
  now := now
  drawn := drawn
  loaded := .ok servedShippedPack
  packFile _ := .error .environment

/-- Alice compiles and reads her run. -/
def aliceAlone : List (ServerCall Nat) :=
  [hostedCall "alice" (.compileRuntime "harden the worker queue" "feature" none none) "r1" 1,
    hostedCall "alice" (.runResource "r1") "r2" 3]

/-- Bob compiles before her, and tries to read her run. -/
def aliceAmongOthers : List (ServerCall Nat) :=
  [hostedCall "bob" (.compileRuntime "review the worker queue" "feature" none none) "r3" 0,
    hostedCall "alice" (.compileRuntime "harden the worker queue" "feature" none none) "r1" 1,
    hostedCall "bob" (.runResource "r1") "r4" 2,
    hostedCall "alice" (.runResource "r1") "r2" 3]

attribute [local instance] Sha256.transparent TextTables.ascii LaxInput.strict

/-- No number is read. -/
abbrev numberless : DecimalFloat := ⟨fun _ => .nan⟩

attribute [local instance] numberless

/-- What the caller asks the hosted server to compile is compiled. -/
theorem hostedCall_compiles (subject : String) (request : ServerRequest) (drawn : String)
    (now : Nat) (mission taskType : String) (hmission : isBlank mission = false) :
    ∃ bundle, (hostedCall subject request drawn now).compileBundle mission taskType none none
      = .ok (servedShippedPack, bundle) := by
  have hne : mission ≠ "" := by
    rintro rfl
    cases hmission
  obtain ⟨bundle, hbundle⟩ := compile_shipped Sha256.transparent_injective shippedPack_ships
    (.standard mission taskType) hne
  refine ⟨bundle, ?_⟩
  have hload : loadServed (.standard mission taskType) (.ok servedShippedPack)
      = .ok servedShippedPack := by
    unfold loadServed
    rw [show isBlank (CompileRequest.standard mission taskType).mission = false from hmission]
    rfl
  have hservice : serviceCompile (.standard mission taskType) (.ok servedShippedPack) none none
      = .ok (servedShippedPack, bundle) := by
    unfold serviceCompile
    rw [hload, ok_bind]
    exact congrArg (fun compiled => compiled.mapError (fun e => ServiceFault.raised (.model e))
      >>= fun bundle => .ok (servedShippedPack, bundle)) hbundle
  exact congrArg (Except.mapError toolFault) hservice

def bobCompiles : ServerCall Nat :=
  hostedCall "bob" (.compileRuntime "review the worker queue" "feature" none none) "r3" 0

def aliceCompiles : ServerCall Nat :=
  hostedCall "alice" (.compileRuntime "harden the worker queue" "feature" none none) "r1" 1

/-- Bob asks for a run. -/
def bobReads (runId : String) : ServerCall Nat := hostedCall "bob" (.runResource runId) "r4" 2

/-- What Bob compiled is still there when he reads it. -/
theorem bob_run_readable {bundle bundle' : RuntimeBundle} {bob alice : String}
    (hbob : bobCompiles.compileBundle "review the worker queue" "feature" none none
      = .ok (servedShippedPack, bundle))
    (halice : aliceCompiles.compileBundle "harden the worker queue" "feature" none none
      = .ok (servedShippedPack, bundle'))
    (hbobOwner : bobCompiles.owner hostedServer = some bob)
    (haliceOwner : aliceCompiles.owner hostedServer = some alice) :
    ∃ s answers, Server.run hostedServer [bobCompiles, aliceCompiles] .empty = .ok (s, answers)
      ∧ Readable s "r3" bob (bobReads "r3").now := by
  let mine := RunStore.newRecord hostedServer.store bob (runPayload servedShippedPack bundle)
    "r3" 0
  let hers := RunStore.newRecord hostedServer.store alice (runPayload servedShippedPack bundle')
    "r1" 1
  have hfirst := Server.step_compile rfl hbob hbobOwner
    (show RunStore.empty.create hostedServer.store bob (runPayload servedShippedPack bundle) "r3" 0
      = .ok (RunStore.empty.insert "r3" mine, mine) from rfl)
  have hsecond := Server.step_compile rfl halice haliceOwner
    (show (RunStore.empty.insert "r3" mine).create hostedServer.store alice
        (runPayload servedShippedPack bundle') "r1" 1
      = .ok ((RunStore.empty.insert "r3" mine).insert "r1" hers, hers) from rfl)
  refine ⟨_, _, Server.run_pair hfirst hsecond, mine, ?_, rfl, ?_⟩
  · simp only [RunStore.insert]
    rw [AList.lookup_insert_ne (by decide), AList.lookup_insert]
  · show ¬ 60 ≤ 2
    decide

/-- Bob reads the run he compiled. -/
theorem bob_is_served_his_own :
    ∃ bundle s answers s' answer,
      bobCompiles.compileBundle "review the worker queue" "feature" none none
        = .ok (servedShippedPack, bundle)
      ∧ Server.run hostedServer [bobCompiles, aliceCompiles] .empty = .ok (s, answers)
      ∧ Server.step hostedServer s (bobReads "r3") = .ok (s', answer)
      ∧ ServesOwn hostedServer ([bobCompiles, aliceCompiles].zip answers) (bobReads "r3") s s'
          answer
      ∧ answer = .ok (.text (Json.obj (runPayload servedShippedPack bundle)).dumpsIndented) := by
  obtain ⟨bundle, hbob⟩ := hostedCall_compiles "bob"
    (.compileRuntime "review the worker queue" "feature" none none) "r3" 0
    "review the worker queue" "feature" (by decide)
  obtain ⟨bundle', halice⟩ := hostedCall_compiles "alice"
    (.compileRuntime "harden the worker queue" "feature" none none) "r1" 1
    "harden the worker queue" "feature" (by decide)
  obtain ⟨s, answers, s', answer, hrun, hstep, -, hserves⟩ :=
    server_serves_own_runs hostedServer (by decide) [bobCompiles, aliceCompiles] (bobReads "r3")
      (freshRuns_of_drawn (by decide))
  refine ⟨bundle, s, answers, s', answer, hbob, hrun, hstep, hserves, ?_⟩
  obtain ⟨bob, hbobOwner⟩ : ∃ bob, bobCompiles.owner hostedServer = some bob :=
    ⟨(resolvePrincipal (some (tokenOf "bob")) true).getD "", by decide⟩
  obtain ⟨alice, haliceOwner⟩ : ∃ alice, aliceCompiles.owner hostedServer = some alice :=
    ⟨(resolvePrincipal (some (tokenOf "alice")) true).getD "", by decide⟩
  have hreadable : Readable s "r3" bob (bobReads "r3").now := by
    obtain ⟨_, _, hrun', hreadable⟩ := bob_run_readable hbob halice hbobOwner haliceOwner
    obtain ⟨rfl, -⟩ := Prod.mk.inj (Except.ok.inj (hrun'.symm.trans hrun))
    exact hreadable
  obtain ⟨content, hcontent⟩ := (hserves.hides "r3" bob rfl hbobOwner).1 hreadable
  obtain ⟨payload, earlier, hcompiled, rfl, -⟩ := hserves.reads "r3" content rfl hcontent
  have hearlier : earlier = bobCompiles := by
    have hmem := (List.of_mem_zip hcompiled.answered).1
    have hother : aliceCompiles.owner hostedServer ≠ (bobReads "r3").owner hostedServer := by
      decide
    rcases List.mem_pair.mp hmem with rfl | rfl
    · rfl
    · exact absurd hcompiled.same_owner hother
  subst hearlier
  obtain ⟨_, _, _, _, _, _, hrequest, hsame, rfl⟩ := hcompiled.is_compile
  cases hrequest
  obtain ⟨rfl, rfl⟩ := Prod.mk.inj (Except.ok.inj (hsame.symm.trans hbob))
  exact hcontent

/-- Alice is told the same whether Bob is there or not. -/
theorem alice_among_others :
    ∃ s answers s' answers', Server.run hostedServer aliceAlone .empty = .ok (s, answers)
      ∧ Server.run hostedServer aliceAmongOthers .empty = .ok (s', answers')
      ∧ ownReplies (ServerCall.ownedBy hostedServer
            ((resolvePrincipal (some (tokenOf "alice")) true).getD "")) (aliceAlone.zip answers)
        = ownReplies (ServerCall.ownedBy hostedServer
            ((resolvePrincipal (some (tokenOf "alice")) true).getD ""))
            (aliceAmongOthers.zip answers') := by
  have hfresh : FreshRuns hostedServer aliceAlone := freshRuns_of_drawn (by decide)
  have hfresh' : FreshRuns hostedServer aliceAmongOthers := freshRuns_of_drawn (by decide)
  refine server_users_isolated hostedServer (by decide) _ aliceAlone aliceAmongOthers hfresh
    hfresh' ?_ ?_ (keepsUser_of_room (by decide) hfresh (by decide) _)
    (keepsUser_of_room (by decide) hfresh' (by decide) _) ?_
  · simp [InClockOrder, aliceAlone, hostedCall]
  · simp [InClockOrder, aliceAmongOthers, hostedCall]
  · have hself : resolvePrincipal (some (tokenOf "alice")) true
        = some ((resolvePrincipal (some (tokenOf "alice")) true).getD "") := by decide
    have hother : resolvePrincipal (some (tokenOf "bob")) true
        ≠ some ((resolvePrincipal (some (tokenOf "alice")) true).getD "") := by decide
    have halice : ∀ request drawn now, (hostedCall "alice" request drawn now).ownedBy hostedServer
        ((resolvePrincipal (some (tokenOf "alice")) true).getD "") = true :=
      fun _ _ _ => decide_eq_true hself
    have hbob : ∀ request drawn now, (hostedCall "bob" request drawn now).ownedBy hostedServer
        ((resolvePrincipal (some (tokenOf "alice")) true).getD "") = false :=
      fun _ _ _ => decide_eq_false hother
    simp [aliceAlone, aliceAmongOthers, halice, hbob]

end Demo

end CognitiveRuntime
