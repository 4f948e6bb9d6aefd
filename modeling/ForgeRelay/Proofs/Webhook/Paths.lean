import ForgeRelay.Proofs.Chains
import ForgeRelay.Proofs.Json.Slots
import ForgeRelay.Webhook.Repository

/-!
# What a webhook says of its repository

The commit and the repository of a webhook stand at fixed paths of its body.  A path is followed
step by step, and each step has a name that is reported if it is the first to be missing.  If
something of the wrong kind stands at any step, the body is malformed, whatever is missing.

* `Repository.commitSteps`, `Repository.repositorySteps`   the steps, with what stands there;
* `Repository.Blames`   the fault for which some steps account;
* `Repository.Walk`     asking for one step after the other;
* `Repository.settled_commitOf`, `Repository.settled_read`   what is read along the steps, or such
  a fault;
* `Repository.read_congr`   a body has members that are not looked at;
* `Checkout.read_exactly_at_paths`   which outcome it is, and that nothing else of a body matters.
-/

namespace ForgeRelay

namespace Repository

/-! ## paths -/

def after (body : Json) : Slot := ((Slot.holds body).member ["after"] "after").text

def request (body : Json) : Slot := (Slot.holds body).member ["pull_request"] "pull_request"
def head (request : Slot) : Slot := request.member ["head"] "head"
def sha (head : Slot) : Slot := (head.member ["sha"] "sha").text

def home (body : Json) : Slot := (Slot.holds body).member ["repository"] "repository"

def partNames : List String := ["name", "owner", "html_url"]

def name (home : Slot) : Slot := (home.member partNames "name").text
def owner (home : Slot) : Slot := home.member partNames "owner"
def login (owner : Slot) : Slot := (owner.member ["login"] "login").text
def url (home : Slot) : Slot := (home.member partNames "html_url").text

/-- the steps of a path with what stands there -/
abbrev Steps := List (String × Slot)

def commitSteps : EventKind → Json → Steps
  | .push, body => [("after", after body)]
  | .pullRequest, body =>
    [("pull_request", request body), ("pull_request.head", head (request body)),
      ("pull_request.head.sha", sha (head (request body)))]
  | .other _, _ => []

/-- an owner that is absent counts as one without a login -/
def repositorySteps (body : Json) : Steps :=
  [("repository", home body), ("repository.name", name (home body)),
    ("repository.owner.login", login (owner (home body))),
    ("repository.html_url", url (home body))]

/-- the body names this commit -/
def Names : EventKind → Json → String → Prop
  | .push, body, ref => after body = .holds (.str ref)
  | .pullRequest, body, ref => sha (head (request body)) = .holds (.str ref)
  | .other _, _, ref => ref = ""

/-- the body describes the repository like this -/
def Describes (body : Json) (c : Checkout) : Prop :=
  name (home body) = .holds (.str c.name) ∧ login (owner (home body)) = .holds (.str c.owner) ∧
    url (home body) = .holds (.str c.url)

/-! ## faults -/

/-- somewhere stands something of the wrong kind -/
def Broken (steps : Steps) : Prop := ∃ step ∈ steps, step.2 = .wrong

/-- the name of the first step that is missing -/
def firstAbsent? : Steps → Option String
  | [] => none
  | (field, .absent) :: _ => some field
  | (_, _) :: steps => firstAbsent? steps

/-- the fault of a path: what is of the wrong kind counts before what is absent -/
inductive Blames (steps : Steps) : WebhookFault → Prop
  | wrong (h : Broken steps) (reason : String) : Blames steps (.malformed reason)
  | absent {field : String} (h : ¬ Broken steps) (hfirst : firstAbsent? steps = some field) :
    Blames steps (.absent field)

theorem not_broken_nil : ¬ Broken [] := fun ⟨_, h, _⟩ => (nomatch h)

theorem broken_of_mem (field : String) {slot : Slot} {steps : Steps} (h : (field, slot) ∈ steps)
    (hwrong : slot = .wrong) : Broken steps := ⟨_, h, hwrong⟩

theorem not_broken_cons {field : String} {slot : Slot} {steps : Steps} (hslot : slot ≠ .wrong)
    (h : ¬ Broken steps) : ¬ Broken ((field, slot) :: steps) := by
  rintro ⟨step, hstep, hwrong⟩
  rcases List.mem_cons.1 hstep with rfl | hstep
  · exact hslot hwrong
  · exact h ⟨step, hstep, hwrong⟩

theorem not_broken_absent {field : String} {steps : Steps} (h : ¬ Broken steps) :
    ¬ Broken ((field, .absent) :: steps) :=
  not_broken_cons (fun e => (nomatch e)) h

/-- What comes of asking for one step after the other, when nothing is of the wrong kind: the first
that is absent ends it, and if there is none what was wanted was read. -/
inductive Walk {α : Type} (p : α → Prop) : Steps → Except WebhookFault α → Prop
  | done {a : α} (h : p a) : Walk p [] (.ok a)
  | stop {field : String} {steps : Steps} (h : ¬ Broken steps) :
    Walk p ((field, .absent) :: steps) (.error (.absent field))
  | step {field : String} {j : Json} {steps : Steps} {x : Except WebhookFault α}
    (h : Walk p steps x) : Walk p ((field, .holds j) :: steps) x

/-- what is read along some steps, or the fault for which they account -/
inductive Settled {α : Type} (p : α → Prop) (steps : Steps) : Except WebhookFault α → Prop
  | read {a : α} (h : p a) : Settled p steps (.ok a)
  | refused {fault : WebhookFault} (h : Blames steps fault) : Settled p steps (.error fault)

section
variable {α β : Type} {p : α → Prop} {steps : Steps} {x : Except WebhookFault α}

theorem Walk.not_broken (h : Walk p steps x) : ¬ Broken steps := by
  induction h with
  | done _ => exact not_broken_nil
  | stop h => exact not_broken_absent h
  | step _ ih => exact not_broken_cons (fun e => (nomatch e)) ih

theorem Walk.settled (h : Walk p steps x) : Settled p steps x := by
  -- a step that is there changes neither what is first to be absent nor what is broken
  induction h with
  | done h => exact .read h
  | stop h => exact .refused (.absent (not_broken_absent h) rfl)
  | step h ih =>
    cases ih with
    | read hp => exact .read hp
    | refused hb =>
      cases hb with
      | wrong hwrong => exact absurd hwrong h.not_broken
      | absent hnot hfirst =>
        exact .refused (.absent (not_broken_cons (fun e => (nomatch e)) hnot) hfirst)

/-- asking for the text in a place, and going on with it -/
theorem Walk.text {slot : Slot} {f : String → Except WebhookFault α} (field : String)
    (hslot : slot.text ≠ .wrong) (hsteps : ¬ Broken steps)
    (hnext : ∀ s, slot.text = .holds (.str s) → Walk p steps (f s)) :
    Walk p ((field, slot.text) :: steps) (need field slot.text.text? >>= f) := by
  rcases slot.text_cases with habsent | hwrong | ⟨s, hs⟩
  · rw [habsent]
    exact .stop hsteps
  · exact absurd hwrong hslot
  · rw [hs]
    exact .step (hnext s hs)

/-- the last text that is asked for -/
theorem Walk.lastText {slot : Slot} {p : String → Prop} (field : String)
    (hslot : slot.text ≠ .wrong) (hp : ∀ s, slot.text = .holds (.str s) → p s) :
    Walk p [(field, slot.text)] (need field slot.text.text?) := by
  have hneed : need field slot.text.text? = (need field slot.text.text? >>= Except.ok) := by
    cases need field slot.text.text? <;> rfl
  rw [hneed]
  exact .text field hslot not_broken_nil fun s hs => .done (hp s hs)

variable {decoder : Decoder Json β} {f : β → Except WebhookFault α} {body : Json}

theorem settled_of_none (hread : (decoder body).toOption = none) (h : Broken steps) :
    Settled p steps (part decoder body >>= f) := by
  unfold part
  cases hd : decoder body with
  | error why => exact .refused (.wrong h why.message)
  | ok b =>
    rw [hd] at hread
    cases hread

theorem settled_of_some {b : β} (hread : (decoder body).toOption = some b)
    (h : Walk p steps (f b)) : Settled p steps (part decoder body >>= f) := by
  unfold part
  cases hd : decoder body with
  | error why =>
    rw [hd] at hread
    cases hread
  | ok c =>
    rw [hd] at hread
    cases hread
    exact h.settled

end

/-! ## paths that are all there -/

/-- every step of a path is there -/
def Held (steps : Steps) : Prop := ∀ step ∈ steps, ∃ j, step.2 = .holds j

theorem held_nil : Held [] := fun _ h => (nomatch h)

theorem held_cons {field : String} {slot : Slot} {j : Json} {steps : Steps}
    (hslot : slot = .holds j) (h : Held steps) : Held ((field, slot) :: steps) := by
  intro step hstep
  rcases List.mem_cons.1 hstep with rfl | hstep
  · exact ⟨j, hslot⟩
  · exact h step hstep

theorem Held.not_blames {steps : Steps} (h : Held steps) {fault : WebhookFault} :
    ¬ Blames steps fault := by
  rintro (⟨⟨step, hstep, hwrong⟩, _⟩ | ⟨-, hfirst⟩)
  · obtain ⟨j, hj⟩ := h step hstep
    rw [hj] at hwrong
    cases hwrong
  · induction steps with
    | nil => cases hfirst
    | cons step steps ih =>
      obtain ⟨field, slot⟩ := step
      obtain ⟨j, hj⟩ := h (field, slot) (List.mem_cons_self ..)
      cases hj
      exact ih (fun s hs => h s (List.mem_cons_of_mem _ hs)) hfirst

section
variable {α : Type} {p : α → Prop} {steps : Steps} {x : Except WebhookFault α}

theorem Settled.of_ok {a : α} (h : Settled p steps (.ok a)) : p a := by
  cases h with
  | read hp => exact hp

theorem Settled.of_error {fault : WebhookFault} (h : Settled p steps (.error fault)) :
    Blames steps fault := by
  cases h with
  | refused hb => exact hb

theorem Settled.exists_of_held (h : Settled p steps x) (hheld : Held steps) :
    ∃ a, x = .ok a ∧ p a := by
  cases h with
  | read hp => exact ⟨_, rfl, hp⟩
  | refused hb => exact absurd hb hheld.not_blames

end

/-! ## two runs -/

/-- the same outcome, up to the reason for which a body is malformed -/
def Alike {α : Type} (x y : Except WebhookFault α) : Prop :=
  x = y ∨ (∃ reason, x = .error (.malformed reason)) ∧ ∃ reason, y = .error (.malformed reason)

/-- what stands along the steps settles the outcome -/
theorem Settled.alike {α : Type} {p : α → Prop} {steps : Steps} {x y : Except WebhookFault α}
    (hx : Settled p steps x) (hy : Settled p steps y) (hp : ∀ {a b}, p a → p b → a = b)
    (hheld : ∀ {a}, p a → Held steps) : Alike x y := by
  cases hx with
  | read ha =>
    obtain ⟨b, rfl, hb⟩ := hy.exists_of_held (hheld ha)
    exact .inl (congrArg _ (hp ha hb))
  | refused hx =>
    cases hy with
    | read hb => exact absurd hx (hheld hb).not_blames
    | refused hy =>
      cases hx with
      | wrong hbroken reason =>
        cases hy with
        | wrong _ reason' => exact .inr ⟨⟨reason, rfl⟩, reason', rfl⟩
        | absent hnot _ => exact absurd hbroken hnot
      | absent hnot hfirst =>
        cases hy with
        | wrong hbroken _ => exact absurd hbroken hnot
        | absent _ hfirst' =>
          rw [hfirst] at hfirst'
          cases hfirst'
          exact .inl rfl

/-! ## commits -/

section
variable {body : Json} (h : body.Ordered)

include h

theorem settled_push :
    Settled (Names .push body) (commitSteps .push body) (commitOf .push body) := by
  have hread : (pushDecoder body).toOption
      = ((Slot.holds body).member ["after"] "after").read Decoder.text :=
    Record.read_optional_toOption h ..
  show Settled _ _ (part pushDecoder body >>= need "after")
  by_cases hwrong : after body = .wrong
  · rw [Slot.read_text_of_wrong hwrong] at hread
    exact settled_of_none hread (broken_of_mem "after" (by simp [commitSteps]) hwrong)
  · rw [Slot.read_text_of_ne_wrong hwrong] at hread
    exact settled_of_some hread (.lastText "after" hwrong fun _ href => href)

theorem settled_pullRequest :
    Settled (Names .pullRequest body) (commitSteps .pullRequest body)
      (commitOf .pullRequest body) := by
  have hread : (pullRequestBodyDecoder body).toOption = (request body).read pullRequestDecoder :=
    Record.read_optional_toOption h ..
  show Settled (fun ref => sha (head (request body)) = .holds (.str ref))
    [("pull_request", request body), ("pull_request.head", head (request body)),
      ("pull_request.head.sha", sha (head (request body)))]
    (part pullRequestBodyDecoder body >>= fun b => need "pull_request" b >>=
      fun r => need "pull_request.head" r >>= need "pull_request.head.sha")
  -- a step that is there is looked into for the next one; otherwise the path ends with it
  cases hrequest : request body with
  | absent =>
    rw [hrequest] at hread
    exact settled_of_some hread (.stop (not_broken_absent (not_broken_absent not_broken_nil)))
  | wrong =>
    rw [hrequest] at hread
    exact settled_of_none hread (broken_of_mem "pull_request" (by simp) rfl)
  | holds r =>
    have hr : r.Ordered := Slot.ordered_of_member h hrequest
    have hreadHead : (pullRequestDecoder r).toOption = (head (.holds r)).read headDecoder :=
      Record.read_optional_toOption hr ..
    rw [hrequest, Slot.read, hreadHead] at hread
    cases hhead : head (.holds r) with
    | absent =>
      rw [hhead] at hread
      exact settled_of_some hread (.step (.stop (not_broken_absent not_broken_nil)))
    | wrong =>
      rw [hhead] at hread
      exact settled_of_none hread (broken_of_mem "pull_request.head" (by simp) rfl)
    | holds d =>
      have hd : d.Ordered := Slot.ordered_of_member hr hhead
      have hreadSha : (headDecoder d).toOption
          = ((Slot.holds d).member ["sha"] "sha").read Decoder.text :=
        Record.read_optional_toOption hd ..
      rw [hhead, Slot.read, hreadSha] at hread
      by_cases hwrong : sha (.holds d) = .wrong
      · rw [Slot.read_text_of_wrong hwrong] at hread
        exact settled_of_none hread (broken_of_mem "pull_request.head.sha" (by simp) hwrong)
      · rw [Slot.read_text_of_ne_wrong hwrong] at hread
        exact settled_of_some hread (.step (.step
          (.lastText "pull_request.head.sha" hwrong fun _ href => href)))

theorem settled_commitOf (event : EventKind) :
    Settled (Names event body) (commitSteps event body) (commitOf event body) := by
  cases event with
  | push => exact settled_push h
  | pullRequest => exact settled_pullRequest h
  | other _ => exact .read rfl

end

theorem Names.unique {event : EventKind} {body : Json} {a b : String} (ha : Names event body a)
    (hb : Names event body b) : a = b := by
  cases event with
  | other _ => exact Eq.trans ha (Eq.symm hb)
  | _ =>
    have h := Eq.trans (Eq.symm ha) hb
    cases h
    rfl

theorem Names.held {event : EventKind} {body : Json} {ref : String} (h : Names event body ref) :
    Held (commitSteps event body) := by
  cases event with
  | other _ => exact held_nil
  | push => exact held_cons h held_nil
  | pullRequest =>
    have hsha : sha (head (request body)) = .holds (.str ref) := h
    obtain ⟨_, hmember⟩ := Slot.holds_of_text hsha
    obtain ⟨d, hhead⟩ := Slot.holds_of_member hmember
    obtain ⟨r, hrequest⟩ := Slot.holds_of_member hhead
    exact held_cons hrequest (held_cons hhead (held_cons hsha held_nil))

theorem commitOf_eq_ok_iff {event : EventKind} {body : Json} (h : body.Ordered) {ref : String} :
    commitOf event body = .ok ref ↔ Names event body ref := by
  constructor
  · intro hok
    have hs := settled_commitOf h event
    rw [hok] at hs
    exact hs.of_ok
  · intro href
    obtain ⟨ref', hok, href'⟩ := (settled_commitOf h event).exists_of_held href.held
    rw [hok, href.unique href']

theorem names_congr {event : EventKind} {body body' : Json}
    (h : commitSteps event body' = commitSteps event body) :
    Names event body' = Names event body := by
  funext ref
  cases event with
  | other _ => rfl
  | push =>
    have hafter : after body' = after body := by simpa [commitSteps] using h
    show (after body' = _) = (after body = _)
    rw [hafter]
  | pullRequest =>
    have hsha : sha (head (request body')) = sha (head (request body)) := by
      simp only [commitSteps, List.cons.injEq, Prod.mk.injEq] at h
      exact h.2.2.1.2
    show (sha (head (request body')) = _) = (sha (head (request body)) = _)
    rw [hsha]

/-! ## repositories -/

theorem partsDecoder_toOption {j : Json} (h : j.Ordered) :
    (partsDecoder j).toOption =
      (((Slot.holds j).member partNames "name").read Decoder.text).bind fun name =>
        ((owner (.holds j)).read ownerDecoder).bind fun owner =>
          (((Slot.holds j).member partNames "html_url").read Decoder.text).map fun url =>
            ⟨name, owner, url⟩ := by
  have hnamed : Record.Named (Parts.mk
      <$> Record.optional "name" (Decoder.text : Decoder Json String)
      <*> Record.optional "owner" ownerDecoder
      <*> Record.optional "html_url" Decoder.text) partNames :=
    (((Record.Named.optional "name" _).map Parts.mk).seq (Record.Named.optional "owner" _)
      (by simp)).seq (Record.Named.optional "html_url" _) (by simp)
  have hread := hnamed.read_toOption "Repository" j
  refine hread.trans ?_
  unfold owner
  cases hm : j.membersAs? partNames with
  | none =>
    rw [Slot.member_of_none hm]
    rfl
  | some members =>
    have hd := Json.nodup_of_membersAs? (by decide) h hm
    rw [Slot.member_of_some hm, Slot.member_of_some hm, Slot.member_of_some hm, Option.bind_some,
      Record.keyed_seq_toOption, Record.keyed_seq_toOption, Record.keyed_map, toOption_map,
      Record.keyed_optional_toOption hd, Record.keyed_optional_toOption hd,
      Record.keyed_optional_toOption hd]
    cases (Slot.ofMember (Keyed.lookup "name" members)).read Decoder.text with
    | none => rfl
    | some name => cases (Slot.ofMember (Keyed.lookup "owner" members)).read ownerDecoder <;> rfl

/-- an owner is read for the login -/
theorem read_owner {j : Json} (h : j.Ordered) :
    (login (owner (.holds j)) = .wrong → (owner (.holds j)).read ownerDecoder = none) ∧
      (login (owner (.holds j)) ≠ .wrong →
        ∃ found, (owner (.holds j)).read ownerDecoder = some found ∧
          found.bind id = (login (owner (.holds j))).text?) := by
  cases howner : owner (.holds j) with
  | absent => exact ⟨fun hw => (nomatch hw), fun _ => ⟨none, rfl, rfl⟩⟩
  | wrong => exact ⟨fun _ => rfl, fun hne => absurd rfl hne⟩
  | holds o =>
    have ho : o.Ordered := Slot.ordered_of_member h howner
    have hread : (ownerDecoder o).toOption
        = ((Slot.holds o).member ["login"] "login").read Decoder.text :=
      Record.read_optional_toOption ho ..
    rw [Slot.read, hread]
    constructor
    · intro hw
      rw [Slot.read_text_of_wrong hw]
      rfl
    · intro hne
      rw [Slot.read_text_of_ne_wrong hne]
      exact ⟨some _, rfl, rfl⟩

theorem settled_read {body : Json} (h : body.Ordered) {event : EventKind} {ref : String}
    (href : commitOf event body = .ok ref) :
    Settled (fun c => Describes body c ∧ c.ref = ref) (repositorySteps body)
      (Checkout.read event body) := by
  have hread : (bodyDecoder body).toOption = (home body).read partsDecoder :=
    Record.read_optional_toOption h ..
  have heq : Checkout.read event body = part bodyDecoder body >>= fun b => need "repository" b >>=
      fun parts => need "repository.name" parts.name >>= fun name =>
        need "repository.owner.login" (parts.owner.bind id) >>= fun owner =>
          need "repository.html_url" parts.url >>= fun url => .ok ⟨owner, name, url, ref⟩ := by
    unfold Checkout.read
    rw [href]
    rfl
  rw [heq]
  unfold Describes repositorySteps
  cases hhome : home body with
  | absent =>
    rw [hhome] at hread
    exact settled_of_some hread (.stop
      (not_broken_absent (not_broken_absent (not_broken_absent not_broken_nil))))
  | wrong =>
    rw [hhome] at hread
    exact settled_of_none hread (broken_of_mem "repository" (by simp) rfl)
  | holds j =>
    have hj : j.Ordered := Slot.ordered_of_member h hhome
    rw [hhome, Slot.read, partsDecoder_toOption hj] at hread
    -- all three are read before the first is asked for, so the wrong kind of any comes first
    by_cases hname : name (.holds j) = .wrong
    · rw [Slot.read_text_of_wrong hname] at hread
      exact settled_of_none hread (broken_of_mem "repository.name" (by simp) hname)
    by_cases hlogin : login (owner (.holds j)) = .wrong
    · rw [Slot.read_text_of_ne_wrong hname, (read_owner hj).1 hlogin] at hread
      exact settled_of_none hread (broken_of_mem "repository.owner.login" (by simp) hlogin)
    obtain ⟨found, hfound, hbind⟩ := (read_owner hj).2 hlogin
    rw [Slot.read_text_of_ne_wrong hname, hfound] at hread
    by_cases hurl : url (.holds j) = .wrong
    · rw [Slot.read_text_of_wrong hurl] at hread
      exact settled_of_none hread (broken_of_mem "repository.html_url" (by simp) hurl)
    · rw [Slot.read_text_of_ne_wrong hurl] at hread
      refine settled_of_some hread (.step (.text "repository.name" hname ?_ fun n hn => ?_))
      · exact not_broken_cons hlogin (not_broken_cons hurl not_broken_nil)
      · show Walk _ _ (need "repository.owner.login" (found.bind id) >>= _)
        rw [hbind]
        refine .text "repository.owner.login" hlogin (not_broken_cons hurl not_broken_nil)
          fun o ho => .text "repository.html_url" hurl not_broken_nil fun u hu => .done ?_
        exact ⟨⟨hn, ho, hu⟩, rfl⟩

theorem Describes.held {body : Json} {c : Checkout} (h : Describes body c) :
    Held (repositorySteps body) := by
  obtain ⟨hname, hlogin, hurl⟩ := h
  obtain ⟨_, hmember⟩ := Slot.holds_of_text hname
  obtain ⟨_, hhome⟩ := Slot.holds_of_member hmember
  exact held_cons hhome (held_cons hname (held_cons hlogin (held_cons hurl held_nil)))

theorem Describes.unique {body : Json} {a b : Checkout} (ha : Describes body a)
    (hb : Describes body b) (href : a.ref = b.ref) : a = b := by
  obtain ⟨hname, hlogin, hurl⟩ := ha
  obtain ⟨hname', hlogin', hurl'⟩ := hb
  rw [hname] at hname'
  rw [hlogin] at hlogin'
  rw [hurl] at hurl'
  cases a
  cases b
  cases hname'
  cases hlogin'
  cases hurl'
  cases href
  rfl

theorem describes_congr {body body' : Json} (h : repositorySteps body' = repositorySteps body) :
    Describes body' = Describes body := by
  simp only [repositorySteps, List.cons.injEq, Prod.mk.injEq] at h
  obtain ⟨-, ⟨-, hname⟩, ⟨-, hlogin⟩, ⟨-, hurl⟩, -⟩ := h
  funext c
  unfold Describes
  rw [hname, hlogin, hurl]

/-! ## what is not looked at -/

/-- the members of a body that are looked at -/
def keysRead : EventKind → List String
  | .push => ["after", "repository"]
  | .pullRequest => ["pull_request", "repository"]
  | .other _ => ["repository"]

theorem part_congr {α : Type} {decoder : Decoder Json α} {body body' : Json}
    (h : decoder body = decoder body') : part decoder body = part decoder body' := by
  unfold part
  rw [h]

section
variable {members members' : List (String × Json)} (ho : (Json.obj members).Ordered)
  (ho' : (Json.obj members').Ordered)

include ho ho'

theorem part_optional_congr {α : Type} (name : String) {key : String} (value : Decoder Json α)
    (h : Keyed.lookup key members = Keyed.lookup key members') :
    part (Record.read name (Record.optional key value)) (.obj members)
      = part (Record.read name (Record.optional key value)) (.obj members') := by
  refine part_congr ((Record.Named.optional key value).read_obj_congr name ho ho' ?_)
  intro k hk
  rw [List.mem_singleton.1 hk]
  exact h

theorem commitOf_congr {event : EventKind}
    (h : ∀ key ∈ keysRead event, Keyed.lookup key members = Keyed.lookup key members') :
    commitOf event (.obj members) = commitOf event (.obj members') := by
  cases event with
  | other _ => rfl
  | push =>
    have hpart := part_optional_congr ho ho' "PushBody" Decoder.text
      (h "after" (List.mem_cons_self ..))
    exact congrArg (· >>= need "after") hpart
  | pullRequest =>
    have hpart := part_optional_congr ho ho' "PullRequestBody" pullRequestDecoder
      (h "pull_request" (List.mem_cons_self ..))
    exact congrArg (· >>= fun b => need "pull_request" b >>= fun r => need "pull_request.head" r >>=
      need "pull_request.head.sha") hpart

theorem read_congr {event : EventKind}
    (h : ∀ key ∈ keysRead event, Keyed.lookup key members = Keyed.lookup key members') :
    Checkout.read event (.obj members) = Checkout.read event (.obj members') := by
  have hkey : "repository" ∈ keysRead event := by
    cases event <;> simp [keysRead]
  have hpart : part bodyDecoder (.obj members) = part bodyDecoder (.obj members') :=
    part_optional_congr ho ho' "RepositoryBody" partsDecoder (h "repository" hkey)
  unfold Checkout.read
  rw [commitOf_congr ho ho' h, hpart]

end

end Repository

open Repository

namespace Checkout

variable {event : EventKind} {body : Json}

theorem read_of_commit_error {fault : WebhookFault} (h : commitOf event body = .error fault) :
    read event body = .error fault := by
  unfold read
  rw [h]
  rfl

theorem read_eq_ok_iff (h : body.Ordered) {c : Checkout} :
    read event body = .ok c ↔ commitOf event body = .ok c.ref ∧ Describes body c := by
  constructor
  · intro hok
    cases href : commitOf event body with
    | error fault =>
      rw [read_of_commit_error href] at hok
      cases hok
    | ok ref =>
      have hs := settled_read h href
      rw [hok] at hs
      obtain ⟨hc, rfl⟩ := hs.of_ok
      exact ⟨rfl, hc⟩
  · rintro ⟨href, hc⟩
    obtain ⟨c', hok, hc', href'⟩ := (settled_read h href).exists_of_held hc.held
    rw [hok, hc.unique hc' href'.symm]

/-- nothing but what stands along the steps matters -/
theorem read_alike {body' : Json} (h : body.Ordered) (h' : body'.Ordered)
    (hcommit : commitSteps event body' = commitSteps event body)
    (hrepository : repositorySteps body' = repositorySteps body) :
    Alike (read event body') (read event body) := by
  have halike : Alike (commitOf event body') (commitOf event body) := by
    have hs' := settled_commitOf h' event
    rw [hcommit, names_congr hcommit] at hs'
    exact hs'.alike (settled_commitOf h event) Names.unique Names.held
  rcases halike with heq | ⟨⟨reason, hr⟩, reason', hr'⟩
  · cases href : commitOf event body with
    | error fault =>
      rw [href] at heq
      exact .inl ((read_of_commit_error heq).trans (read_of_commit_error href).symm)
    | ok ref =>
      rw [href] at heq
      have hs' := settled_read h' heq
      rw [hrepository, describes_congr hrepository] at hs'
      exact hs'.alike (settled_read h href)
        (fun ha hb => ha.1.unique hb.1 (ha.2.trans hb.2.symm)) fun ha => ha.1.held
  · exact .inr ⟨⟨reason, read_of_commit_error hr⟩, reason', read_of_commit_error hr'⟩

/-- **What is read of a body stands at fixed paths.**  The commit is the text at the path of the
event, and the empty text for an event without a path, whatever the body is.  The repository is read
exactly if there is a commit and the three texts are there, and then it is made of these texts.  A
fault of the commit comes first; then comes something of the wrong kind on the paths of the
repository, even if a step before it is absent; then the first step that is absent.  Nothing else of
a body matters: bodies with the same steps differ at most in the reason for which they are
malformed, and objects that agree in the members that are looked at do not differ at all. -/
theorem read_exactly_at_paths {body : Json} (h : body.Ordered) (event : EventKind) :
    (∀ ref, commitOf event body = .ok ref ↔ Names event body ref) ∧
    (∀ fault, commitOf event body = .error fault → Blames (commitSteps event body) fault) ∧
    (∀ c, Checkout.read event body = .ok c ↔
      commitOf event body = .ok c.ref ∧ Describes body c) ∧
    (∀ fault, commitOf event body = .error fault → Checkout.read event body = .error fault) ∧
    (∀ ref fault, commitOf event body = .ok ref → Checkout.read event body = .error fault →
      Blames (repositorySteps body) fault) ∧
    (∀ body', body'.Ordered → commitSteps event body' = commitSteps event body →
      repositorySteps body' = repositorySteps body →
        Alike (Checkout.read event body') (Checkout.read event body)) ∧
    ∀ members members', body = .obj members → (Json.obj members').Ordered →
      (∀ key ∈ keysRead event, Keyed.lookup key members' = Keyed.lookup key members) →
        Checkout.read event (.obj members') = Checkout.read event body := by
  refine ⟨fun ref => commitOf_eq_ok_iff h, fun fault hf => ?_, fun c => read_eq_ok_iff h,
    fun fault hf => read_of_commit_error hf, fun ref fault href hf => ?_,
    fun body' h' hcommit hrepository => read_alike h h' hcommit hrepository,
    fun members members' hbody ho' hsame => ?_⟩
  · have hs := settled_commitOf h event
    rw [hf] at hs
    exact hs.of_error
  · have hs := settled_read h href
    rw [hf] at hs
    exact hs.of_error
  · rw [hbody] at h ⊢
    exact read_congr ho' h hsame

/-- an array of the three fields is a repository; what else a body holds is passed over -/
theorem read_exactly_at_paths_listed :
    let body := Json.obj [("after", .str "9f2c1e"),
      ("repository",
        .arr [.str "hello", .obj [("login", .str "org")], .str "https://forge/org/hello"]),
      ("zen", .null)]
    body.Ordered ∧
      Checkout.read .push body = .ok ⟨"org", "hello", "https://forge/org/hello", "9f2c1e"⟩ := by
  intro body
  have h : body.Ordered := by
    have hlogin : Keyed.Sorted [("login", Json.str "org")] := List.pairwise_singleton ..
    have hfields : Json.OrderedItems
        [.str "hello", .obj [("login", .str "org")], .str "https://forge/org/hello"] :=
      ⟨trivial, ⟨hlogin, trivial, trivial⟩, trivial, trivial⟩
    exact ⟨by unfold Keyed.Sorted; decide, trivial, hfields, trivial, trivial⟩
  have href : commitOf .push body = .ok "9f2c1e" :=
    ((read_exactly_at_paths h .push).1 "9f2c1e").2 rfl
  exact ⟨h, ((read_exactly_at_paths h .push).2.2.1 _).2 ⟨href, rfl, rfl, rfl⟩⟩

/-- the wrong kind of an URL counts before the absence of the name -/
example : ∃ reason, Checkout.read (.other "ping")
    (.obj [("repository", .obj [("html_url", .bool true)])]) = .error (.malformed reason) :=
  ⟨_, rfl⟩

end Checkout

end ForgeRelay
