import ForgeRelay.Proofs.Json.Values
import ForgeRelay.Proofs.Webhook.Publishing
import ForgeRelay.Proofs.Webhook.Wire

/-!
# Reading what was published

A body may be nested as deep as any text, and stands one level deeper in the envelope that is sent.
So there are bodies that are accepted and published, and that no consumer can read: those of the
greatest depth, and no others.

* `Gateway.accept_eq_ok`            where the envelope of an accepted request comes from;
* `Gateway.read_published_iff`      which published envelopes can be read back;
* `Gateway.published_unreadable`    one that cannot.
-/

namespace ForgeRelay

namespace Gateway

theorem accept_eq_ok {g : Gateway} {h : Hub} {headers : Http.Headers} {body : Bytes}
    {a : Acceptance} (ha : (g.accept h headers body).1 = .ok a) :
    (∃ fields, Json.read? body = some (.obj fields) ∧
      a.envelope = Envelope.ofRequest headers fields) ∧
    a.published = (g.publish h a.envelope).1.isOk ∧
    (g.accept h headers body).2 = (g.publish h a.envelope).2 := by
  cases hv : g.verify headers body with
  | error fault =>
    rw [accept_of_refused hv] at ha
    cases ha
  | ok _ =>
    cases hb : bodyFields body with
    | error fault =>
      rw [accept_of_malformed hv hb] at ha
      cases ha
    | ok fields =>
      rw [accept_of_fields hv hb] at ha ⊢
      cases ha
      exact ⟨⟨fields, bodyFields_eq_ok.1 hb, rfl⟩, rfl, rfl⟩

/-- what was published was handed to the link of the destination -/
theorem publish_of_isOk {g : Gateway} {h : Hub} {e : Envelope}
    (hp : (g.publish h e).1.isOk = true) :
    ∃ node l, h.destination g.destination = .ok (node, l) ∧
      (l.send node.topic e.wire).1 = .ok () ∧
      (g.publish h e).2 = h.putLink node.provider (l.send node.topic e.wire).2 := by
  unfold publish at hp ⊢
  cases hd : h.destination g.destination with
  | error fault =>
    rw [hd] at hp
    cases hp
  | ok route =>
    obtain ⟨node, l⟩ := route
    rw [hd] at hp
    dsimp only at hp ⊢
    refine ⟨node, l, rfl, ?_⟩
    revert hp
    obtain ⟨outcome, l'⟩ := l.send node.topic e.wire
    cases outcome with
    | error fault => exact fun hp => nomatch hp
    | ok _ => exact fun _ => ⟨rfl, rfl⟩

/-- **What was published is read back as it was, unless its body is nested 127 deep**, which is as
deep as a body can be; then it is malformed. -/
theorem read_published_iff {g : Gateway} {h : Hub} {headers : Http.Headers} {body : Bytes}
    {a : Acceptance} (ha : (g.accept h headers body).1 = .ok a) (hp : a.published = true)
    (hi : a.envelope.body.Integral) :
    let payload := a.envelope.wire
    (∃ node l, h.destination g.destination = .ok (node, l) ∧
      (l.send node.topic payload).1 = .ok () ∧
      (g.accept h headers body).2 = h.putLink node.provider (l.send node.topic payload).2) ∧
    a.envelope.body.depth ≤ 127 ∧
    (Envelope.read payload = .ok a.envelope ↔ a.envelope.body.depth ≠ 127) ∧
    (a.envelope.body.depth = 127 →
      ∃ reason, Envelope.read payload = .error (.malformed reason)) := by
  intro payload
  obtain ⟨⟨fields, hread, henvelope⟩, hpublished, hafter⟩ := accept_eq_ok ha
  obtain ⟨ho, hd⟩ := Json.read?_ordered_depth hread
  have hbody : a.envelope.body = .obj fields := by rw [henvelope]; rfl
  have hwire := Envelope.read_wire a.envelope (hbody ▸ ho) hi
  have hdepth : a.envelope.body.depth ≤ 127 := hbody ▸ hd
  obtain ⟨node, l, hdest, hsent, hhub⟩ := publish_of_isOk (hpublished.symm.trans hp)
  refine ⟨⟨node, l, hdest, hsent, hafter.trans hhub⟩, hdepth, ?_, fun hmax => ?_⟩
  · show Envelope.read a.envelope.wire = _ ↔ _
    rw [hwire]
    constructor
    · intro hok hmax
      rw [if_neg (by omega)] at hok
      cases hok
    · intro hmax
      rw [if_pos (by omega)]
  · exact ⟨_, hwire.trans (if_neg (by omega))⟩

/-! ## the deepest body -/

/-- arrays in arrays; the innermost one is empty -/
def tower : Nat → Json
  | 0 => .arr []
  | n + 1 => .arr [tower n]

theorem depth_tower (n : Nat) : (tower n).depth = n + 1 := by
  induction n with
  | zero => rfl
  | succ n ih =>
    show max (tower n).depth 0 + 1 = _
    omega

theorem ordered_tower (n : Nat) : (tower n).Ordered := by
  induction n with
  | zero => trivial
  | succ n ih => exact ⟨ih, trivial⟩

theorem integral_tower (n : Nat) : (tower n).Integral := by
  induction n with
  | zero => trivial
  | succ n ih => exact ⟨ih, trivial⟩

theorem ordered_integral_tower (n : Nat) :
    (Json.obj [("a", tower n)]).Ordered ∧ (Json.obj [("a", tower n)]).Integral :=
  ⟨⟨List.pairwise_singleton _ _, ordered_tower n, trivial⟩, integral_tower n, trivial⟩

theorem depth_obj_tower (n : Nat) : (Json.obj [("a", tower n)]).depth = n + 2 := by
  show max (tower n).depth 0 + 1 = _
  rw [depth_tower]
  omega

/-- an object around a tower is accepted and published up to the greatest depth -/
theorem accept_tower {g : Gateway} (hs : g.secret = none) {h : Hub} (hl : h.IsLoopback)
    {node : Endpoint} {l : Link} (hd : h.destination g.destination = .ok (node, l)) {n : Nat}
    (hn : n ≤ 125) :
    (g.accept h [] (Json.obj [("a", tower n)]).write).1 =
      .ok ⟨.ofRequest [] [("a", tower n)], true⟩ := by
  obtain ⟨ho, hi⟩ := ordered_integral_tower n
  have hread : Json.read? (Json.obj [("a", tower n)]).write = some (.obj [("a", tower n)]) := by
    rw [Json.read?_write ho hi, depth_obj_tower, if_pos]
    show n + 2 ≤ 127
    omega
  have hv : g.verify [] (Json.obj [("a", tower n)]).write = .ok () := by
    unfold verify
    rw [hs]
  rw [accept_of_fields hv (bodyFields_eq_ok.2 hread), publish_of_destination hl hd]
  rfl

/-- a body of depth 126 is read back from what was published -/
theorem read_published_tower :
    let node : Endpoint := ⟨"github", "push", "loop"⟩
    let h : Hub := .withLinks ⟨[], [node], []⟩ [.loopback ⟨"loop", "memory", "", ⟨0⟩⟩]
    let a : Acceptance := ⟨.ofRequest [] [("a", tower 124)], true⟩
    ((⟨"github", none⟩ : Gateway).accept h [] (Json.obj [("a", tower 124)]).write).1 = .ok a ∧
      a.published = true ∧ a.envelope.body.Integral ∧
      Envelope.read a.envelope.wire = .ok a.envelope := by
  intro node h a
  have hl : h.IsLoopback := fun e he => by
    obtain rfl := List.mem_singleton.1 he
    rfl
  have hd : h.destination "github" = .ok (node, .loopback ⟨"loop", "memory", "", ⟨0⟩⟩) := rfl
  have ha := accept_tower (g := ⟨"github", none⟩) rfl hl hd (n := 124) (by decide)
  have hi := (ordered_integral_tower 124).2
  obtain ⟨-, -, hread, -⟩ := read_published_iff ha rfl hi
  refine ⟨ha, rfl, hi, hread.2 ?_⟩
  show (Json.obj [("a", tower 124)]).depth ≠ 127
  rw [depth_obj_tower]
  decide

/-- a body of depth 127 is accepted and published, and what was published is malformed -/
theorem published_unreadable :
    let node : Endpoint := ⟨"github", "push", "loop"⟩
    let h : Hub := .withLinks ⟨[], [node], []⟩ [.loopback ⟨"loop", "memory", "", ⟨0⟩⟩]
    let e : Envelope := .ofRequest [] [("a", tower 125)]
    e.body.Integral ∧
      ((⟨"github", none⟩ : Gateway).accept h [] (Json.obj [("a", tower 125)]).write).1 =
        .ok ⟨e, true⟩ ∧
      Envelope.read e.wire ≠ .ok e := by
  intro node h e
  have hl : h.IsLoopback := fun e he => by
    obtain rfl := List.mem_singleton.1 he
    rfl
  obtain ⟨ho, hi⟩ := ordered_integral_tower 125
  have hd : h.destination "github" = .ok (node, .loopback ⟨"loop", "memory", "", ⟨0⟩⟩) := rfl
  refine ⟨hi, accept_tower rfl hl hd (by decide), fun hok => ?_⟩
  have hdepth := (Envelope.depth_le_of_read_wire ho hi hok).1
  have hmax : e.body.depth = 127 := depth_obj_tower 125
  omega

end Gateway

end ForgeRelay
