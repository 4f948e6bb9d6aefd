import ForgeRelay.Proofs.Credential.Snapshot
import ForgeRelay.Proofs.Webhook.Downloading
import ForgeRelay.Proofs.Webhook.Paths

/-!
# What is done for a download

A download looks for the event of an envelope, reads its body, resolves the credential for the
repository and then makes a call, in this order.  What fails ends it with all that would come later
left undone, so a call is made once or not at all.

* `Download.refused`       nothing is done;
* `Download.SeesSame`      surroundings that a download cannot tell from one another;
* `Asks`                   what a call asks for, and as whom;
* `fetchYaml_of_error`, `fetchYaml_of_ok`   the ways through a download;
* `fetchYaml_congr`        nothing but what is said to be done matters;
* `fetchYaml_in_order`     the order of what is done.
-/

namespace ForgeRelay

/-! ## surroundings -/

/-- the fault of a download for which nothing was done -/
def Download.refused {α : Type} (fault : WebhookFault) (r : Resolver) : Download α :=
  ⟨.error fault, r, false, []⟩

/-- Surroundings at one time that give a download the same secrets, if it listed them, and the same
reply to every call that it made. -/
structure Download.SeesSame {α : Type} (d : Download α) (space : String) (s s' : Surroundings) :
    Prop where
  now : s'.now = s.now
  list : d.listed = true → s'.list space = s.list space
  exchange : ∀ call ∈ d.calls, s'.exchange call = s.exchange call

theorem Resolver.resolve_congr {r : Resolver} {now : Nat}
    {list list' : String → Except RelayFault (List Secret)} {url : String}
    (h : (r.resolve now list url).listed = true → list' r.space = list r.space) :
    r.resolve now list' url = r.resolve now list url := by
  cases hfresh : r.fresh? now with
  | some records => rw [resolve_of_fresh hfresh, resolve_of_fresh hfresh]
  | none =>
    rw [listed_resolve, hfresh] at h
    have hlist := h rfl
    cases hl : list r.space with
    | error fault => rw [resolve_of_error hfresh hl, resolve_of_error hfresh (hlist.trans hl)]
    | ok secrets => rw [resolve_of_ok hfresh hl, resolve_of_ok hfresh (hlist.trans hl)]

namespace Fetcher

open Repository

variable {f : Fetcher} {r : Resolver} {s : Surroundings} {path : String}

/-! ## files -/

section
variable {info : Checkout} {host : Option String}

theorem listed_fetch :
    (f.fetch r s info path host).listed = (r.resolve s.now s.list info.url).listed := by
  cases ha : (r.resolve s.now s.list info.url).answer with
  | error fault => rw [fetch_of_error ha]
  | ok c => rw [fetch_of_ok ha]

theorem fetch_congr {s' : Surroundings}
    (h : (f.fetch r s info path host).SeesSame r.space s s') :
    f.fetch r s' info path host = f.fetch r s info path host := by
  have hresolve : r.resolve s'.now s'.list info.url = r.resolve s.now s.list info.url := by
    rw [h.now]
    exact Resolver.resolve_congr fun hl => h.list (listed_fetch.trans hl)
  cases ha : (r.resolve s.now s.list info.url).answer with
  | error fault =>
    rw [fetch_of_error ha, fetch_of_error (hresolve ▸ ha), hresolve]
  | ok c =>
    have hreply := h.exchange (f.fileCall info path host c)
      (by rw [fetch_of_ok ha]; exact List.mem_singleton_self _)
    rw [fetch_of_ok ha, fetch_of_ok (hresolve ▸ ha), hresolve, hreply]

theorem answer_fetch_eq_none_iff :
    (f.fetch r s info path host).answer = .ok none ↔
      ∃ call reply, (f.fetch r s info path host).calls = [call] ∧
        s.exchange call = .ok reply ∧ (reply.status = 400 ∨ reply.status = 404) := by
  cases ha : (r.resolve s.now s.list info.url).answer with
  | error fault =>
    rw [fetch_of_error ha]
    exact ⟨nofun, nofun⟩
  | ok c =>
    rw [fetch_of_ok ha]
    dsimp only
    rw [ofReply_eq_none_iff_replied]
    constructor
    · rintro ⟨reply, hreply, hstatus⟩
      exact ⟨_, reply, rfl, hreply, hstatus⟩
    · rintro ⟨call, reply, hcall, hreply, hstatus⟩
      cases hcall
      exact ⟨reply, hreply, hstatus⟩

end

/-! ## what a call asks for -/

/-- the call gets what it is for, is authorized by the credential, and asks for the commit that the
body names unless that is empty -/
structure Asks (event : EventKind) (body : Json) (c : Credential) (call : Http.Call) : Prop where
  gets : call.method = "GET"
  authorized : call.authorization = .basic c.username c.token
  commit : ∀ ref, call.query = [("ref", ref)] ↔ Names event body ref ∧ ref ≠ ""
  noCommit : call.query = [] ↔ Names event body ""

theorem asks_fileCall {event : EventKind} {body : Json} {info : Checkout}
    (h : Names event body info.ref) (f : Fetcher) (path : String) (host : Option String)
    (c : Credential) :
    Asks event body c (f.fileCall info path host c) := by
  have hnames : ∀ ref, Names event body ref ↔ info.ref = ref :=
    fun ref => ⟨fun href => h.unique href, fun href => href ▸ h⟩
  by_cases hempty : info.ref = ""
  · have hquery : (f.fileCall info path host c).query = [] := if_pos hempty
    refine ⟨rfl, rfl, fun ref => ?_, ?_⟩
    · rw [hquery, hnames, hempty]
      exact ⟨nofun, fun ⟨heq, hne⟩ => absurd heq.symm hne⟩
    · rw [hquery, hnames]
      exact ⟨fun _ => hempty, fun _ => rfl⟩
  · have hquery : (f.fileCall info path host c).query = [("ref", info.ref)] := if_neg hempty
    refine ⟨rfl, rfl, fun ref => ?_, ?_⟩
    · rw [hquery, hnames]
      constructor
      · intro heq
        cases heq
        exact ⟨rfl, hempty⟩
      · rintro ⟨rfl, -⟩
        rfl
    · rw [hquery, hnames]
      exact ⟨nofun, fun heq => absurd heq hempty⟩

/-! ## documents -/

/-- what is made of a file that was fetched -/
def parsed : Except WebhookFault (Option Bytes) → Except WebhookFault (Option Json)
  | .error fault => .error fault
  | .ok none => .ok none
  | .ok (some bs) => (document bs).map some

theorem parsed_eq_none_iff {x : Except WebhookFault (Option Bytes)} :
    parsed x = .ok none ↔ x = .ok none := by
  cases x with
  | error fault => exact ⟨nofun, nofun⟩
  | ok found =>
    cases found with
    | none => exact ⟨fun _ => rfl, fun _ => rfl⟩
    | some bs =>
      show (document bs).map some = .ok none ↔ _
      cases document bs <;> exact ⟨nofun, nofun⟩

section
variable {e : Envelope}

theorem subject_of_none (h : e.eventType? = none) :
    subject e = .error (.absent "X-Github-Event header") := by
  unfold subject
  rw [h]

theorem subject_of_some {event : String} (h : e.eventType? = some event) :
    subject e = Checkout.read (.ofName event) e.body := by
  unfold subject
  rw [h]

theorem fetchYaml_of_error {fault : WebhookFault} (h : subject e = .error fault) :
    f.fetchYaml r s e path = .refused fault r := by
  unfold fetchYaml
  rw [h]
  rfl

theorem fetchYaml_of_ok {info : Checkout} (h : subject e = .ok info) :
    f.fetchYaml r s e path =
      ⟨parsed (f.fetch r s info path e.enterpriseHost?).answer,
        (f.fetch r s info path e.enterpriseHost?).resolver,
        (f.fetch r s info path e.enterpriseHost?).listed,
        (f.fetch r s info path e.enterpriseHost?).calls⟩ := by
  unfold fetchYaml
  rw [h]
  dsimp only
  rcases (f.fetch r s info path e.enterpriseHost?).answer with fault | _ | bs <;> rfl

/-- nothing but what is said to be done matters -/
theorem fetchYaml_congr {s' : Surroundings} (h : (f.fetchYaml r s e path).SeesSame r.space s s') :
    f.fetchYaml r s' e path = f.fetchYaml r s e path := by
  cases hsubject : subject e with
  | error fault => rw [fetchYaml_of_error hsubject, fetchYaml_of_error hsubject]
  | ok info =>
    rw [fetchYaml_of_ok hsubject] at h
    rw [fetchYaml_of_ok hsubject, fetchYaml_of_ok hsubject,
      fetch_congr ⟨h.now, h.list, h.exchange⟩]

theorem answer_fetchYaml_eq_none_iff :
    (f.fetchYaml r s e path).answer = .ok none ↔
      ∃ call reply, (f.fetchYaml r s e path).calls = [call] ∧
        s.exchange call = .ok reply ∧ (reply.status = 400 ∨ reply.status = 404) := by
  cases hsubject : subject e with
  | error fault =>
    rw [fetchYaml_of_error hsubject]
    exact ⟨nofun, nofun⟩
  | ok info =>
    rw [fetchYaml_of_ok hsubject]
    exact parsed_eq_none_iff.trans answer_fetch_eq_none_iff

/-- **A download makes one call, after all that it needs, or none.**  Without an event the header is
missed, and a body that is not about a repository has its own fault; either way the resolver is as
it was, no secrets are listed and no call is made.  Otherwise the credential for the URL of the
repository is resolved; if there is none, that is the fault and still no call is made.  With one
there is one GET, authorized by it, which asks for the commit that the body names unless that is
empty; other events than pushes and pull requests name none.  There is no file exactly if the reply
to the one call has the status 400 or 404.  Nothing else is asked for: where the secrets that were
listed and the replies to the calls are the same, so is the download. -/
theorem fetchYaml_in_order (he : e.body.Ordered) (f : Fetcher) (r : Resolver) (s : Surroundings)
    (path : String) :
    let d := f.fetchYaml r s e path
    (e.eventType? = none → d = .refused (.absent "X-Github-Event header") r) ∧
    (∀ event, e.eventType? = some event →
      (∀ fault, Checkout.read (.ofName event) e.body = .error fault → d = .refused fault r) ∧
      ∀ info, Checkout.read (.ofName event) e.body = .ok info →
        let found := r.resolve s.now s.list info.url
        url (home e.body) = .holds (.str info.url) ∧
        d.resolver = found.resolver ∧ d.listed = found.listed ∧
        (∀ fault, found.answer = .error fault → d.answer = .error (.relay fault) ∧ d.calls = []) ∧
        ∀ c, found.answer = .ok c → ∃ call, d.calls = [call] ∧
          Asks (.ofName event) e.body c call ∧
          (event ≠ "push" → event ≠ "pull_request" → call.query = [])) ∧
    (d.answer = .ok none ↔ ∃ call reply, d.calls = [call] ∧ s.exchange call = .ok reply ∧
      (reply.status = 400 ∨ reply.status = 404)) ∧
    ∀ s', d.SeesSame r.space s s' → f.fetchYaml r s' e path = d := by
  intro d
  refine ⟨fun hnone => fetchYaml_of_error (subject_of_none hnone), fun event hevent => ?_,
    answer_fetchYaml_eq_none_iff, fun s' hsees => fetchYaml_congr hsees⟩
  have hsubject : subject e = Checkout.read (.ofName event) e.body := subject_of_some hevent
  refine ⟨fun fault hfault => fetchYaml_of_error (hsubject.trans hfault), fun info hinfo => ?_⟩
  intro found
  have hd : d = _ := fetchYaml_of_ok (hsubject.trans hinfo)
  obtain ⟨hcommit, hdescribes⟩ := (Checkout.read_eq_ok_iff he).1 hinfo
  have hnames := (commitOf_eq_ok_iff he).1 hcommit
  cases hanswer : found.answer with
  | error fault =>
    rw [fetch_of_error hanswer] at hd
    rw [hd]
    exact ⟨hdescribes.2.2, rfl, rfl, fun fault' heq => Except.error.inj heq ▸ ⟨rfl, rfl⟩, nofun⟩
  | ok c =>
    rw [fetch_of_ok hanswer] at hd
    have hasks := asks_fileCall hnames f path e.enterpriseHost? c
    rw [hd]
    refine ⟨hdescribes.2.2, rfl, rfl, nofun, fun c' heq => ?_⟩
    cases heq
    refine ⟨_, rfl, hasks, fun hpush hpull => hasks.noCommit.2 ?_⟩
    rw [EventKind.ofName, if_neg hpush, if_neg hpull]
    rfl

/-- a pull request whose repository does not have the file -/
theorem fetchYaml_in_order_missing :
    let request := Json.obj [("head", .obj [("sha", .str "9f2c1e")])]
    let repository := Json.obj [("html_url", .str "https://github.com/org/app"),
      ("name", .str "app"), ("owner", .obj [("login", .str "org")])]
    let body := Json.obj [("pull_request", request), ("repository", repository)]
    let secret : Secret := ⟨"creds", "relay",
      StringMap.empty.insert "kabanero.io/git-0" "https://github.com/org",
      (StringMap.empty.insert "username" "dXNlcg==").insert "password" "dG9rZW4="⟩
    let e : Envelope := ⟨StringMap.empty.insert "X-Github-Event" ["pull_request"], body⟩
    let s : Surroundings := ⟨0, fun _ => .ok [secret], fun _ => .ok ⟨404, []⟩⟩
    let d := (Fetcher.mk none).fetchYaml (.new "relay" .never) s e "rules.yaml"
    body.Ordered ∧ d.answer = .ok none ∧ ∃ call, d.calls = [call] ∧ call.method = "GET" ∧
      call.authorization = .basic "user" "token" ∧ call.query = [("ref", "9f2c1e")] := by
  intro request repository body secret e s d
  have hrequest : request.Ordered :=
    ⟨List.pairwise_singleton .., ⟨List.pairwise_singleton .., trivial, trivial⟩, trivial⟩
  have hrepository : repository.Ordered :=
    ⟨by unfold Keyed.Sorted; decide, trivial, trivial,
      ⟨List.pairwise_singleton .., trivial, trivial⟩, trivial⟩
  have he : body.Ordered := ⟨by unfold Keyed.Sorted; decide, hrequest, hrepository, trivial⟩
  obtain ⟨-, hread, hnone, -⟩ :=
    fetchYaml_in_order (e := e) he (Fetcher.mk none) (.new "relay" .never) s "rules.yaml"
  have hinfo : Checkout.read (.ofName "pull_request") body =
      .ok ⟨"org", "app", "https://github.com/org/app", "9f2c1e"⟩ :=
    toOption_eq_some_iff.1 (by decide)
  have hc : ((Resolver.new "relay" .never).resolve s.now s.list "https://github.com/org/app").answer =
      .ok ⟨"user", "token", "creds"⟩ := toOption_eq_some_iff.1 (by decide)
  obtain ⟨-, -, -, -, hcall⟩ := (hread "pull_request" (by decide)).2 _ hinfo
  obtain ⟨call, hcall, hasks, -⟩ := hcall _ hc
  exact ⟨he, hnone.2 ⟨call, ⟨404, []⟩, hcall, rfl, .inr rfl⟩, call, hcall, hasks.gets,
    hasks.authorized,
    (hasks.commit _).2 ⟨rfl, by decide⟩⟩

end

end Fetcher

end ForgeRelay
