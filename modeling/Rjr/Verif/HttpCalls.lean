import Rjr.Verif.HttpPosts
import Rjr.Verif.Settling

/-!
# Calls between web nodes

A call over HTTP that returns agrees with its answer, and every call is answered at most once. The
errback of a post hands an empty text to `handle_message`, so a call whose post fails does not
learn of it and never returns. All other calls can be completed, whatever fails besides.
-/

namespace Rjr.Verif.HttpCalls

open Messages Node Nodes Provenance Agreement Carriers Settling HttpPosts

variable {ι : Type}

section Calls

variable [DecidableEq ι] {platform : Platform} {routes : Routes ι} {nodes : ι → Node}

/-- Calls over HTTP that return agree with their answers, and every call is dispatched and its
answer recorded at most once, whatever posts fail. A call whose post has failed has not returned,
even if its answer came later. -/
theorem http_calls_agree (fit : Fit platform nodes) (silent : Silent platform)
    (actions : List (HttpAction ι)) (final : Http ι)
    (plain : ∀ act ∈ actions, PlainArgs platform.json.createId act)
    (ran : (Http.machine platform routes).run (Http.initial nodes) actions = some final) :
    (∀ node id response, final.hosts.phase node id = .returned response →
      Agrees platform routes.wiring nodes final.hosts node id response) ∧
    (∀ call, Once routes.wiring final.hosts call (· ≤ 1)) ∧
    ∀ call ∈ final.hosts.asked, call.on ∈ final.failed → ∀ response,
      final.hosts.phase (routes.wiring.owner call.on) call.id ≠ .returned response := by
  refine ⟨fun _ _ _ returned => (carrier silent routes nodes).agrees fit plain ran returned,
    fun call => (carrier silent routes nodes).once fit plain ran call, ?_⟩
  intro call asked failed response returned
  obtain ⟨placed, fates⟩ := fates_run fit silent plain ran
  obtain ⟨sound, _⟩ := (carrier silent routes nodes).accounted fit plain ran
  obtain ⟨recorded, inside, other, own, back, owner, id, _⟩ :=
    returned_recorded sound.hosts returned
  -- the node has asked one call under this id
  have same : other = call := List.eq_of_pairwise (fun _ _ both => ⟨both.1.symm, both.2.symm⟩)
    sound.hosts.unique own asked ⟨owner, id⟩
  subst same
  have client : recorded.on.server = false := back ▸ (placed.asked other asked).1
  exact (fates.recorded recorded inside client).2 (back ▸ failed)

end Calls

section Failure

/-- All posts go from one node to the other. -/
def oneWay : Routes Bool := ⟨fun _ => false, fun _ => true, fun connection =>
  ⟨connection.number, none⟩⟩

/-- The empty text is not JSON as it is read. -/
theorem silent_jsonText : Silent JsonText.platform := by
  intro tree
  have refused : (JsonText.platform.json.parse "").toOption = none := by decide +kernel
  intro read
  rw [read] at refused
  cases refused

/-- Two calls. Both are answered, but the post of the second fails before its answer comes. -/
def failingCalls : List (HttpAction Bool) :=
  [.invoke "7" "echo" [.int 1], .invoke "8" "echo" [.int 2], .post 0, .post 0, .process 0,
    .process 0, .host (.begin 0), .host (.begin 0), .finish 0, .finish 0, .sendMsg 0, .sendMsg 0,
    .fail ⟨1, false⟩, .receive 0, .receive 0, .host (.register false "7"),
    .host (.register false "8"), .host (.poll false "7"), .host (.poll false "8")]

/-- Their arguments can be sent. -/
theorem failingCalls_plain :
    ∀ act ∈ failingCalls, PlainArgs JsonText.platform.json.createId act := by
  intro act inside
  simp only [failingCalls, List.mem_cons, List.not_mem_nil, or_false] at inside
  rcases inside with rfl | rfl | rfl | rfl | rfl | rfl | rfl | rfl | rfl | rfl | rfl | rfl |
    rfl | rfl | rfl | rfl | rfl | rfl | rfl <;> first | exact trivial | rfl

/-- They run; the first has returned, and the post of the second has failed. -/
theorem failingCalls_run : ∃ final : Http Bool,
    (Http.machine JsonText.platform oneWay).run (Http.initial fun _ => echoNode) failingCalls =
        some final ∧
      final.hosts.phase false "7" = .returned (.str "7", ⟨.arr [.int 1], none⟩) ∧
      ⟨"8", "echo", [.int 2], ⟨1, false⟩⟩ ∈ final.hosts.asked ∧ final.failed = [⟨1, false⟩] := by
  have evaluated : ((Http.machine JsonText.platform oneWay).run
      (Http.initial fun _ => echoNode) failingCalls).map (fun final =>
        (final.hosts.phase false "7",
          decide (⟨"8", "echo", [.int 2], ⟨1, false⟩⟩ ∈ final.hosts.asked), final.failed)) =
      some (.returned (.str "7", ⟨.arr [.int 1], none⟩), true, [⟨1, false⟩]) := by
    decide +kernel
  obtain ⟨final, ran, seen⟩ := Option.map_eq_some_iff.mp evaluated
  obtain ⟨returned, seen⟩ := Prod.mk.inj seen
  obtain ⟨asked, failed⟩ := Prod.mk.inj seen
  exact ⟨final, ran, returned, of_decide_eq_true asked, failed⟩

/-- The first agrees with its answer, and the second has not returned. -/
theorem failing_calls_agree : ∃ final : Http Bool, final.failed = [⟨1, false⟩] ∧
    Agrees JsonText.platform oneWay.wiring (fun _ => echoNode) final.hosts false "7"
      (.str "7", ⟨.arr [.int 1], none⟩) ∧
    Once oneWay.wiring final.hosts ⟨"8", "echo", [.int 2], ⟨1, false⟩⟩ (· ≤ 1) ∧
    ∀ response, final.hosts.phase false "8" ≠ .returned response := by
  obtain ⟨final, ran, returned, asked, failed⟩ := failingCalls_run
  obtain ⟨agree, once, waits⟩ := http_calls_agree fit_echo silent_jsonText failingCalls final
    failingCalls_plain ran
  have own : (⟨1, false⟩ : HttpEnd) ∈ final.failed := by
    rw [failed]
    exact List.mem_singleton.mpr rfl
  exact ⟨final, failed, agree false "7" _ returned, once _, waits _ asked own⟩

end Failure

/-! ## Completion -/

/-- The steps that bring work to its end, each on the oldest entry: no call is made, and nothing
fails, is lost or killed. -/
inductive Handling : HttpAction ι → Prop
  /-- The oldest block posts. -/
  | post : Handling (.post 0)
  /-- The oldest post arrives. -/
  | process : Handling (.process 0)
  /-- The oldest answer is sent. -/
  | sendMsg : Handling (.sendMsg 0)
  /-- The oldest response arrives. -/
  | receive : Handling (.receive 0)
  /-- The oldest job is begun. -/
  | begin : Handling (.host (.begin 0))
  /-- The oldest job that was begun is finished. -/
  | finish : Handling (.finish 0)

/-- None of them calls anything. -/
theorem Handling.plain {createId : String} {action : HttpAction ι} (handling : Handling action) :
    PlainArgs createId action := by
  cases handling <;> exact trivial

section Completion

variable [DecidableEq ι] {platform : Platform} {routes : Routes ι} {nodes : ι → Node}
  {http next : Http ι}

/-- What bringing work to its end leaves as it was. -/
structure Same (before after : Http ι) : Prop where
  /-- No worker was killed. -/
  killed : after.hosts.killed = before.hosts.killed
  /-- Nothing was asked. -/
  asked : after.hosts.asked = before.hosts.asked
  /-- No post failed. -/
  failed : after.failed = before.failed

omit [DecidableEq ι] in
/-- What is left as it was in two parts is left as it was. -/
theorem Same.trans {first second third : Http ι} (early : Same first second)
    (late : Same second third) : Same first third :=
  ⟨late.killed.trans early.killed, late.asked.trans early.asked, late.failed.trans early.failed⟩

/-- A step that is possible, leaves the rest as it was, and brings the work further. -/
def Proceeds (platform : Platform) (routes : Routes ι) (http : Http ι) : Prop :=
  ∃ action next, Handling action ∧ (Http.machine platform routes).step http action = some next ∧
    Same http next ∧ remaining platform (view next) < remaining platform (view http)

omit [DecidableEq ι] in
/-- How much is left to do does not depend on the order. -/
theorem remaining_reordered {first second : Exchange ι HttpEnd} (same : Reordered first second) :
    remaining platform first = remaining platform second := by
  simp only [remaining, same.hosts, same.scheduled.length_eq, same.scheduled.countP_eq,
    same.inFlight.length_eq, same.inFlight.countP_eq]

/-- A step that the exchange takes forward brings the web nodes further. -/
theorem proceeds_of_advances {action : HttpAction ι} (handling : Handling action)
    (stepped : (Http.machine platform routes).step http action = some next)
    (failed : next.failed = http.failed) {step : ExchangeAction ι HttpEnd}
    (advances : Advances platform routes.wiring (view http) step) {after : Exchange ι HttpEnd}
    (taken : (Exchange.machine platform routes.wiring).step (view http) step = some after)
    (same : Reordered (view next) after) : Proceeds platform routes http := by
  obtain ⟨other, took, unspoilt, less⟩ := advances
  rw [taken] at took
  cases took
  have hosts : next.hosts = after.hosts := same.hosts
  refine ⟨action, next, handling, stepped, ⟨?_, ?_, failed⟩, ?_⟩
  · rw [hosts]
    exact unspoilt.killed
  · rw [hosts]
    exact unspoilt.asked
  · rw [remaining_reordered same]
    exact less

/-- The oldest block can post. -/
theorem proceeds_post (fit : Fit platform nodes)
    (sound : Sound platform routes.wiring nodes (view http)) {block : Outgoing HttpEnd}
    {rest : List (Outgoing HttpEnd)} (waits : http.scheduled = block :: rest) :
    Proceeds platform routes http := by
  have queue : (view http).scheduled = block :: (rest ++ http.texts) := by
    rw [view, waits, List.cons_append]
  have first : (view http).scheduled[0]? = some block := by rw [queue]; rfl
  have found : http.scheduled[0]? = some block := by rw [waits]; rfl
  have stepped : (Http.machine platform routes).step http (.post 0) = some _ :=
    Option.map_eq_some_iff.mpr ⟨block, found, rfl⟩
  refine proceeds_of_advances .post stepped rfl (advances_transmit fit.foreign sound queue)
    (Exchange.step_transmit_eq first) ⟨rfl, ?_, (List.perm_added_left _ _ _).symm, .refl _⟩
  rw [queue, view, waits]
  exact .refl _

/-- The oldest answer can be sent. -/
theorem proceeds_sendMsg (fit : Fit platform nodes)
    (sound : Sound platform routes.wiring nodes (view http)) (none : http.scheduled = [])
    {block : Outgoing HttpEnd} {rest : List (Outgoing HttpEnd)}
    (waits : http.texts = block :: rest) : Proceeds platform routes http := by
  have queue : (view http).scheduled = block :: rest := by
    rw [view, none, waits, List.nil_append]
  have first : (view http).scheduled[0]? = some block := by rw [queue]; rfl
  have found : http.texts[0]? = some block := by rw [waits]; rfl
  have stepped : (Http.machine platform routes).step http (.sendMsg 0) = some _ :=
    Option.map_eq_some_iff.mpr ⟨block, found, rfl⟩
  refine proceeds_of_advances .sendMsg stepped rfl (advances_transmit fit.foreign sound queue)
    (Exchange.step_transmit_eq first) ⟨rfl, ?_, ?_, .refl _⟩
  · rw [queue, view, none, waits]
    exact .refl _
  · simp only [view, List.append_assoc]
    exact .refl _

/-- The oldest post can arrive. -/
theorem proceeds_process (fit : Fit platform nodes)
    (sound : Sound platform routes.wiring nodes (view http)) {post : HttpEnd × String}
    {rest : List (HttpEnd × String)} (travels : http.posts = post :: rest) :
    Proceeds platform routes http := by
  have queue : (view http).inFlight = post :: (rest ++ http.responses) := by
    rw [view, travels, List.cons_append]
  have first : (view http).inFlight[0]? = some post := by rw [queue]; rfl
  have found : http.posts[0]? = some post := by rw [travels]; rfl
  have stepped : (Http.machine platform routes).step http (.process 0) = some _ :=
    Option.map_eq_some_iff.mpr ⟨post, found, rfl⟩
  refine proceeds_of_advances .process stepped rfl (advances_deliver fit.foreign sound queue)
    (Exchange.step_deliver first) ⟨rfl, .refl _, ?_, .refl _⟩
  rw [queue, view, travels]
  exact .refl _

/-- A response that is lost is no longer on its way. -/
theorem proceeds_of_lost (text : HttpEnd × String)
    (stepped : (Http.machine platform routes).step http (.receive 0) = some next)
    (hosts : next.hosts = http.hosts) (failed : next.failed = http.failed)
    (scheduled : (view next).scheduled = (view http).scheduled)
    (travels : (view http).inFlight = text :: (view next).inFlight) :
    Proceeds platform routes http := by
  refine ⟨.receive 0, next, .receive, stepped, ⟨by rw [hosts], by rw [hosts], failed⟩, ?_⟩
  have same : (view next).hosts = (view http).hosts := hosts
  simp only [remaining, same, scheduled, travels, List.length_cons, List.countP_cons]
  omega

/-- The oldest response can arrive; if its post is over, it is lost. -/
theorem proceeds_receive (fit : Fit platform nodes)
    (sound : Sound platform routes.wiring nodes (view http)) (none : http.posts = [])
    {response : HttpEnd × String} {rest : List (HttpEnd × String)}
    (travels : http.responses = response :: rest) : Proceeds platform routes http := by
  obtain ⟨connection, text⟩ := response
  have queue : (view http).inFlight = (connection, text) :: rest := by
    rw [view, none, travels, List.nil_append]
  have first : (view http).inFlight[0]? = some (connection, text) := by rw [queue]; rfl
  have found : http.responses[0]? = some (connection, text) := by rw [travels]; rfl
  have left : http.posts ++ http.responses.eraseIdx 0 = rest := by
    rw [none, travels]
    rfl
  have stepped : (Http.machine platform routes).step http (.receive 0) = some _ :=
    Option.map_eq_some_iff.mpr ⟨(connection, text), found, rfl⟩
  dsimp only at stepped
  split at stepped
  · refine proceeds_of_lost (connection, text) stepped rfl rfl rfl ?_
    rw [queue, ← left]
    rfl
  · split at stepped
    · rename_i call
      rw [Http.callback, if_pos call] at stepped
      refine proceeds_of_advances .receive stepped rfl
        (advances_deliver fit.foreign sound queue) (Exchange.step_deliver first)
        ⟨rfl, .refl _, ?_, .refl _⟩
      rw [queue, view, left]
      exact .refl _
    · rename_i notified
      rw [Http.callback, if_neg notified] at stepped
      refine proceeds_of_lost (connection, text) stepped rfl rfl rfl ?_
      rw [queue, ← left]
      rfl

/-- While the web nodes are not quiet, something can be done. -/
theorem quiet_or_proceeds (fit : Fit platform nodes)
    (sound : Sound platform routes.wiring nodes (view http)) :
    Quiet (view http) ∨ Proceeds platform routes http := by
  cases waits : http.scheduled with
  | cons block rest => exact .inr (proceeds_post fit sound waits)
  | nil =>
  cases answers : http.texts with
  | cons block rest => exact .inr (proceeds_sendMsg fit sound waits answers)
  | nil =>
  cases travels : http.posts with
  | cons post rest => exact .inr (proceeds_process fit sound travels)
  | nil =>
  cases returns : http.responses with
  | cons response rest => exact .inr (proceeds_receive fit sound travels returns)
  | nil =>
  cases queue : http.hosts.jobs with
  | cons queued rest =>
    obtain ⟨after, taken, _⟩ := advances_begin sound queue
    obtain ⟨hosts, moved, rfl⟩ := Option.map_eq_some_iff.mp taken
    exact .inr (proceeds_of_advances .begin (Option.map_eq_some_iff.mpr ⟨hosts, moved, rfl⟩) rfl
      (advances_begin sound queue) taken (reordered_refl _))
  | nil =>
  cases work : http.hosts.running with
  | cons running rest =>
    obtain ⟨after, taken, _⟩ := advances_finish fit sound work
    obtain ⟨⟨hosts, answer⟩, done, rfl⟩ := Option.map_eq_some_iff.mp taken
    refine .inr (proceeds_of_advances .finish (Option.map_eq_some_iff.mpr ⟨_, done, rfl⟩) rfl
      (advances_finish fit sound work) taken ⟨rfl, ?_, .refl _, .refl _⟩)
    simp only [view, List.append_assoc]
    exact .refl _
  | nil =>
    refine .inl ⟨?_, ?_, queue, work⟩
    · rw [view, waits, answers, List.append_nil]
    · rw [view, travels, returns, List.append_nil]

/-- Work can be brought to its end. -/
theorem http_settles (fit : Fit platform nodes) (silent : Silent platform)
    (sound : Sound platform routes.wiring nodes (view http)) :
    (Http.machine platform routes).Reaches Handling http fun final =>
      (Sound platform routes.wiring nodes (view final) ∧ Same http final) ∧
        Quiet (view final) := by
  refine Machine.reaches_of_descent _ _ (fun state => remaining platform (view state)) ?_ http
    ⟨sound, ⟨rfl, rfl, rfl⟩⟩
  rintro state ⟨traced, same⟩
  rcases quiet_or_proceeds fit traced with quiet | ⟨action, next, handling, stepped, still, less⟩
  · exact .inl quiet
  · exact .inr ⟨action, next, handling, stepped,
      ⟨(carrier silent routes nodes).sound_step fit traced handling.plain stepped,
        same.trans still⟩, less⟩

omit [DecidableEq ι] in
/-- No request of a call is lost if its post has not failed. -/
theorem request_kept (placed : Placed platform http) (fates : Fates routes http)
    {call : Asked HttpEnd} (asked : call ∈ http.hosts.asked) (working : call.on ∉ http.failed) :
    http.dropped.countP (isText platform (routes.wiring.opposite call.on) call.id .request) =
      0 := by
  rw [List.countP_eq_zero]
  intro text inside own
  obtain ⟨on, _⟩ := of_decide_eq_true own
  obtain ⟨_, post, _⟩ := fates.dropped text inside
  rw [on, routes.wiring.involutive] at post
  exact working (post (congrArg (!·) (placed.asked call asked).1))

omit [DecidableEq ι] in
/-- No answer to it is lost either: what is lost came after another answer, and there is one. -/
theorem answer_kept (sound : Sound platform routes.wiring nodes (view http))
    (accounted : Accounted platform routes.wiring (view http)) (placed : Placed platform http)
    (fates : Fates routes http) {call : Asked HttpEnd} (asked : call ∈ http.hosts.asked)
    (working : call.on ∉ http.failed) :
    http.dropped.countP (isText platform call.on call.id .response) = 0 := by
  obtain ⟨client, number⟩ := placed.asked call asked
  by_contra lost
  obtain ⟨text, inside, own⟩ := List.countP_pos_iff.mp (Nat.pos_of_ne_zero lost)
  obtain ⟨on, _⟩ := of_decide_eq_true own
  obtain ⟨_, _, ended⟩ := fates.dropped text inside
  rw [on] at ended
  rcases ended client number with failed | ⟨recorded, answered, back⟩
  · exact working failed
  · obtain ⟨other, also, same, _, _, _, response⟩ := recorded_answers sound.hosts answered
    have alike : other = call := List.eq_of_pairwise (fun _ _ both => both.symm) placed.distinct
      also asked (same.trans back)
    have counted : 0 < http.hosts.recorded.countP (isRecorded call.on call.id) :=
      List.countP_pos_iff.mpr ⟨recorded, answered, by simp [isRecorded, back, response, alike]⟩
    -- with the lost one it would have been answered twice
    have most := (at_most_once sound.hosts accounted call).1
    have answers := accounted.answers (routes.wiring.opposite call.on) call.id
    simp only [travelling, routes.wiring.involutive, view] at answers most
    omega

omit [DecidableEq ι] in
/-- Once the web nodes are quiet, every call whose post has not failed was dispatched and recorded
exactly once. -/
theorem once_of_quiet (sound : Sound platform routes.wiring nodes (view http))
    (accounted : Accounted platform routes.wiring (view http)) (placed : Placed platform http)
    (fates : Fates routes http) (quiet : Quiet (view http)) (alive : http.hosts.killed = [])
    {call : Asked HttpEnd} (asked : call ∈ http.hosts.asked) (working : call.on ∉ http.failed) :
    Once routes.wiring http.hosts call (· = 1) := by
  refine exactly_once_of sound.hosts accounted asked ?_ ?_ ?_
  · simp only [travelling, quiet.scheduled, quiet.inFlight, List.countP_nil, Nat.zero_add]
    exact request_kept placed fates asked working
  · simp only [travelling, quiet.scheduled, quiet.inFlight, List.countP_nil, Nat.zero_add,
      routes.wiring.involutive]
    exact answer_kept sound accounted placed fates asked working
  · simp only [inWork, quiet.jobs, quiet.running, List.countP_nil]
    rw [view, alive, List.countP_nil]

/-- From every state that was reached, if no worker was killed, the reactor and the workers can go
on so that every call made so far is dispatched and its answer recorded, exactly once, unless its
post has failed. -/
theorem http_calls_complete (fit : Fit platform nodes) (silent : Silent platform)
    (actions : List (HttpAction ι)) (reached : Http ι)
    (plain : ∀ act ∈ actions, PlainArgs platform.json.createId act)
    (ran : (Http.machine platform routes).run (Http.initial nodes) actions = some reached)
    (alive : reached.hosts.killed = []) :
    ∃ more final, (∀ act ∈ more, Handling act) ∧
      (Http.machine platform routes).run reached more = some final ∧
      final.hosts.asked = reached.hosts.asked ∧ final.failed = reached.failed ∧
      ∀ call ∈ reached.hosts.asked, call.on ∉ reached.failed →
        Once routes.wiring final.hosts call (· = 1) := by
  obtain ⟨sound, _⟩ := (carrier silent routes nodes).accounted fit plain ran
  obtain ⟨more, final, handling, worked, ⟨_, same⟩, quiet⟩ := http_settles fit silent sound
  have usual : ∀ act ∈ actions ++ more, PlainArgs platform.json.createId act := fun act inside =>
    (List.mem_append.mp inside).elim (plain act) fun late => (handling act late).plain
  have all := Machine.run_trans _ ran worked
  obtain ⟨traced, accounted⟩ := (carrier silent routes nodes).accounted fit usual all
  obtain ⟨placed, fates⟩ := fates_run fit silent usual all
  refine ⟨more, final, handling, worked, same.asked, same.failed, fun call asked working => ?_⟩
  rw [← same.asked] at asked
  rw [← same.failed] at working
  exact once_of_quiet traced accounted placed fates quiet (same.killed.trans alive) asked working

end Completion

/-- The same calls, with the failure before anything arrives. -/
def failingEarly : List (HttpAction Bool) :=
  [.invoke "7" "echo" [.int 1], .invoke "8" "echo" [.int 2], .post 0, .post 0,
    .fail ⟨1, false⟩]

/-- They run. -/
theorem failingEarly_run : ∃ reached : Http Bool,
    (Http.machine JsonText.platform oneWay).run (Http.initial fun _ => echoNode) failingEarly =
        some reached ∧
      ⟨"7", "echo", [.int 1], ⟨0, false⟩⟩ ∈ reached.hosts.asked ∧
      reached.failed = [⟨1, false⟩] ∧ reached.hosts.killed = [] := by
  have evaluated : ((Http.machine JsonText.platform oneWay).run
      (Http.initial fun _ => echoNode) failingEarly).map (fun reached =>
        (decide (⟨"7", "echo", [.int 1], ⟨0, false⟩⟩ ∈ reached.hosts.asked), reached.failed,
          reached.hosts.killed.isEmpty)) = some (true, [⟨1, false⟩], true) := by
    decide +kernel
  obtain ⟨reached, ran, seen⟩ := Option.map_eq_some_iff.mp evaluated
  obtain ⟨asked, seen⟩ := Prod.mk.inj seen
  obtain ⟨failed, killed⟩ := Prod.mk.inj seen
  exact ⟨reached, ran, of_decide_eq_true asked, failed, List.isEmpty_iff.mp killed⟩

/-- The first can be completed. -/
theorem failing_calls_complete : ∃ reached : Http Bool, reached.failed = [⟨1, false⟩] ∧
    ∃ more final, (∀ act ∈ more, Handling act) ∧
      (Http.machine JsonText.platform oneWay).run reached more = some final ∧
      Once oneWay.wiring final.hosts ⟨"7", "echo", [.int 1], ⟨0, false⟩⟩ (· = 1) := by
  obtain ⟨reached, ran, asked, failed, killed⟩ := failingEarly_run
  have plain : ∀ act ∈ failingEarly, PlainArgs JsonText.platform.json.createId act := by
    intro act inside
    simp only [failingEarly, List.mem_cons, List.not_mem_nil, or_false] at inside
    rcases inside with rfl | rfl | rfl | rfl | rfl <;> first | exact trivial | rfl
  obtain ⟨more, final, handling, went, _, _, once⟩ :=
    http_calls_complete fit_echo silent_jsonText failingEarly reached plain ran killed
  exact ⟨reached, failed, more, final, handling, went, once _ asked (by rw [failed]; decide)⟩

end Rjr.Verif.HttpCalls
