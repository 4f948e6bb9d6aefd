import ForgeRelay.Proofs.Delivery.Consistency
import Mathlib.Logic.Function.Basic

/-!
# The first violation

A topology that is not consistent is refused for the first of its entries that is wrong: the
providers come first, then the destinations, then the sources, each in the order of its list.
`Wrong` says what can be wrong with an entry, given the entries before it.  An entry is never wrong
in two ways: a provider without a name is not called repeated, and an endpoint that is repeated is
not called dangling.

The search of `Topology.violation?` is a `Scan` of the entries from front to back, and a scan comes
to what is wrong with the first entry that is wrong.

* `Scan.firstWrong_iff`            a scan finds the first wrong entry and nothing else;
* `Topology.scan_violation?`       the search of a topology is a scan of its entries;
* `Topology.check_reports_first`   consistency, and the fault of a topology without it.
-/

namespace ForgeRelay

/-! ## entries -/

/-- an entry of a topology, with the list that it stands in -/
inductive Entry where
  | provider (p : Provider)
  | endpoint (role : Role) (e : Endpoint)

/-- the entries in the order in which they count -/
def Topology.entries (t : Topology) : List Entry :=
  t.providers.map .provider ++
    (t.destinations.map (.endpoint .destination) ++ t.sources.map (.endpoint .source))

/-- what is wrong with an entry that comes after those of `before`; `known` are the names of all
providers -/
inductive Wrong (known : List String) (before : List Entry) : Entry → Violation → Prop
  | unnamed {p : Provider} : p.name = "" → Wrong known before (.provider p) .unnamedProvider
  | repeatedProvider {p q : Provider} : p.name ≠ "" → .provider q ∈ before → q.name = p.name →
      Wrong known before (.provider p) (.repeatedProvider p.name)
  | repeatedEndpoint {role : Role} {e f : Endpoint} : .endpoint role f ∈ before → f.name = e.name →
      Wrong known before (.endpoint role e) (.repeatedEndpoint role e.name)
  | dangling {role : Role} {e : Endpoint} : (∀ f, .endpoint role f ∈ before → f.name ≠ e.name) →
      e.provider ∉ known → Wrong known before (.endpoint role e) (.dangling role e)

def Clean (known : List String) (before : List Entry) (x : Entry) : Prop :=
  ∀ v, ¬ Wrong known before x v

/-- `v` is what is wrong with the first of the entries `xs` that is wrong -/
def FirstWrong (known : List String) (before xs : List Entry) (v : Violation) : Prop :=
  ∃ front x rest, xs = front ++ x :: rest ∧ Wrong known (before ++ front) x v ∧
    ∀ front' y rest', front = front' ++ y :: rest' → Clean known (before ++ front') y

/-- an entry is wrong in one way -/
theorem Wrong.eq {known : List String} {before : List Entry} {x : Entry} {v w : Violation}
    (hv : Wrong known before x v) (hw : Wrong known before x w) : v = w := by
  cases hv with
  | unnamed hname =>
    cases hw with
    | unnamed => rfl
    | repeatedProvider hne => exact absurd hname hne
  | repeatedProvider hne =>
    cases hw with
    | unnamed hname => exact absurd hname hne
    | repeatedProvider => rfl
  | repeatedEndpoint hf heq =>
    cases hw with
    | repeatedEndpoint => rfl
    | dangling hfresh => exact absurd heq (hfresh _ hf)
  | dangling hfresh =>
    cases hw with
    | repeatedEndpoint hf heq => exact absurd heq (hfresh _ hf)
    | dangling => rfl

section
variable {known : List String} {before : List Entry} {v : Violation}

theorem not_firstWrong_nil : ¬ FirstWrong known before [] v := by
  rintro ⟨front, x, rest, hsplit, -⟩
  cases front <;> cases hsplit

/-- either the entry in front is wrong, or the first wrong one is behind it -/
theorem firstWrong_cons {x : Entry} {xs : List Entry} :
    FirstWrong known before (x :: xs) v ↔
      Wrong known before x v ∨
        (Clean known before x ∧ FirstWrong known (before ++ [x]) xs v) := by
  constructor
  · rintro ⟨front, y, rest, hsplit, hwrong, hclean⟩
    cases front with
    | nil =>
      rw [List.nil_append] at hsplit
      cases hsplit
      rw [List.append_nil] at hwrong
      exact .inl hwrong
    | cons z front =>
      cases hsplit
      have hx : Clean known (before ++ []) x := hclean [] x front rfl
      rw [List.append_nil] at hx
      refine .inr ⟨hx, front, y, rest, rfl, ?_, ?_⟩
      · rw [List.append_assoc]
        exact hwrong
      · rintro front' z rest' rfl
        rw [List.append_assoc]
        exact hclean (x :: front') z rest' rfl
  · rintro (hwrong | ⟨hx, front, y, rest, rfl, hwrong, hclean⟩)
    · refine ⟨[], x, xs, rfl, ?_, ?_⟩
      · rw [List.append_nil]
        exact hwrong
      · intro front' y rest' hnil
        cases front' <;> cases hnil
    · refine ⟨x :: front, y, rest, rfl, ?_, ?_⟩
      · rw [List.append_assoc] at hwrong
        exact hwrong
      · intro front' z rest' hsplit
        cases front' with
        | nil =>
          cases hsplit
          rw [List.append_nil]
          exact hx
        | cons z' front' =>
          cases hsplit
          have hz := hclean front' z rest' rfl
          rw [List.append_assoc] at hz
          exact hz

end

/-! ## scans -/

/-- entries are passed from front to back up to one that is wrong -/
inductive Scan (known : List String) : List Entry → List Entry → Option Violation → Prop
  | done {before : List Entry} : Scan known before [] none
  | found {before : List Entry} {x : Entry} {xs : List Entry} {v : Violation} :
      Wrong known before x v → Scan known before (x :: xs) (some v)
  | passed {before : List Entry} {x : Entry} {xs : List Entry} {o : Option Violation} :
      Clean known before x → Scan known (before ++ [x]) xs o → Scan known before (x :: xs) o

section
variable {known : List String} {before xs ys : List Entry} {o o' : Option Violation}

theorem Scan.firstWrong_iff (h : Scan known before xs o) (v : Violation) :
    FirstWrong known before xs v ↔ o = some v := by
  induction h with
  | done => exact iff_of_false not_firstWrong_nil nofun
  | found hwrong =>
    rw [firstWrong_cons, Option.some.injEq]
    constructor
    · rintro (hv | ⟨hx, -⟩)
      · exact hwrong.eq hv
      · exact absurd hwrong (hx _)
    · rintro rfl
      exact .inl hwrong
  | passed hx _ ih =>
    rw [firstWrong_cons, ← ih]
    constructor
    · rintro (hv | ⟨-, hrest⟩)
      · exact absurd hv (hx v)
      · exact hrest
    · intro hrest
      exact .inr ⟨hx, hrest⟩

/-- a scan that finds nothing goes on with what follows -/
theorem Scan.append (h : Scan known before xs o) (h' : Scan known (before ++ xs) ys o') :
    Scan known before (xs ++ ys) (o.or o') := by
  induction h with
  | done =>
    rw [List.append_nil] at h'
    exact h'
  | found hwrong => exact .found hwrong
  | passed hx _ ih =>
    refine .passed hx (ih ?_)
    rw [List.append_assoc]
    exact h'

end

/-! ## the search -/

/-- the names seen are those of the entries of one list among those that were passed -/
def Seen {α : Type} (entry : α → Entry) (name : α → String) (before : List Entry)
    (seen : List String) : Prop :=
  ∀ n, n ∈ seen ↔ ∃ a, entry a ∈ before ∧ name a = n

theorem Seen.concat {α : Type} {entry : α → Entry} {name : α → String} {before : List Entry}
    {seen : List String} (hinj : Function.Injective entry) (h : Seen entry name before seen)
    (a : α) : Seen entry name (before ++ [entry a]) (name a :: seen) := by
  intro n
  rw [List.mem_cons, h n]
  constructor
  · rintro (rfl | ⟨b, hb, rfl⟩)
    · exact ⟨a, List.mem_append_right _ (List.mem_singleton.2 rfl), rfl⟩
    · exact ⟨b, List.mem_append_left _ hb, rfl⟩
  · rintro ⟨b, hb, rfl⟩
    rcases List.mem_append.1 hb with hb | hb
    · exact .inr ⟨b, hb, rfl⟩
    · rw [hinj (List.mem_singleton.1 hb)]
      exact .inl rfl

theorem seen_nil {α : Type} {entry : α → Entry} {name : α → String} {before : List Entry}
    (h : ∀ a, entry a ∉ before) : Seen entry name before [] := by
  intro n
  refine iff_of_false List.not_mem_nil ?_
  rintro ⟨a, ha, -⟩
  exact h a ha

section
variable {known seen : List String} {before : List Entry}

theorem scan_providers (ps : List Provider) (hseen : Seen .provider Provider.name before seen) :
    Scan known before (ps.map .provider) (providerViolation? seen ps) := by
  induction ps generalizing before seen with
  | nil => exact .done
  | cons p ps ih =>
    unfold providerViolation?
    split
    · rename_i hname
      exact .found (.unnamed hname)
    · rename_i hname
      split
      · rename_i hmem
        obtain ⟨q, hq, heq⟩ := (hseen _).1 hmem
        exact .found (.repeatedProvider hname hq heq)
      · rename_i hmem
        have hclean : Clean known before (.provider p) := by
          intro v hv
          cases hv with
          | unnamed hempty => exact hname hempty
          | repeatedProvider _ hq heq => exact hmem ((hseen _).2 ⟨_, hq, heq⟩)
        exact .passed hclean (ih (hseen.concat (fun _ _ => Entry.provider.inj) p))

theorem scan_endpoints {role : Role} (es : List Endpoint)
    (hseen : Seen (.endpoint role) Endpoint.name before seen) :
    Scan known before (es.map (.endpoint role)) (endpointViolation? role known seen es) := by
  induction es generalizing before seen with
  | nil => exact .done
  | cons e es ih =>
    unfold endpointViolation?
    split
    · rename_i hmem
      obtain ⟨f, hf, heq⟩ := (hseen _).1 hmem
      exact .found (.repeatedEndpoint hf heq)
    · rename_i hmem
      have hfresh : ∀ f, .endpoint role f ∈ before → f.name ≠ e.name :=
        fun f hf heq => hmem ((hseen _).2 ⟨f, hf, heq⟩)
      split
      · rename_i hknown
        exact .found (.dangling hfresh hknown)
      · rename_i hknown
        have hclean : Clean known before (.endpoint role e) := by
          intro v hv
          cases hv with
          | repeatedEndpoint hf heq => exact hfresh _ hf heq
          | dangling _ hunknown => exact hknown hunknown
        exact .passed hclean (ih (hseen.concat (fun _ _ h => (Entry.endpoint.inj h).2) e))

end

/-! ## faults -/

/-- what is dangling is an unknown provider -/
theorem Violation.fault_unknownProvider_iff {v : Violation} :
    (∃ reference, v.fault = .unknownProvider reference) ↔ ∃ role e, v = .dangling role e := by
  cases v with
  | dangling role e => exact ⟨fun _ => ⟨role, e, rfl⟩, fun _ => ⟨_, rfl⟩⟩
  | _ => simp [Violation.fault]

/-- all else is a matter of the configuration -/
theorem Violation.fault_configuration_iff {v : Violation} :
    (∃ reason, v.fault = .configuration reason) ↔ ∀ role e, v ≠ .dangling role e := by
  cases v <;> simp [Violation.fault]

namespace Topology

theorem scan_violation? (t : Topology) :
    Scan t.providerNames [] t.entries t.violation? := by
  -- neither the providers nor the destinations have names that count for the next list
  refine (scan_providers t.providers (seen_nil fun _ => List.not_mem_nil)).append
    ((scan_endpoints t.destinations (seen_nil ?_)).append
      (scan_endpoints t.sources (seen_nil ?_)))
  · simp
  · simp

/-- **A topology is refused for the first thing wrong with it.**  It passes its check exactly if it
is consistent.  Else the fault is that of the first entry that is wrong: providers come before
destinations and destinations before sources, and an endpoint is repeated only if an earlier one of
its own list has its name.  An endpoint that is dangling gives an unknown provider, and whatever else
is wrong, a configuration fault. -/
theorem check_reports_first (t : Topology) :
    let first := FirstWrong t.providerNames [] t.entries
    (t.check = .ok () ↔ t.Consistent) ∧
    (∀ fault, t.check = .error fault ↔ ∃ v, first v ∧ v.fault = fault) ∧
    ((∃ reference, t.check = .error (.unknownProvider reference)) ↔
      ∃ role e, first (.dangling role e)) ∧
    ((∃ reason, t.check = .error (.configuration reason)) ↔
      ∃ v, first v ∧ ∀ role e, v ≠ .dangling role e) := by
  intro first
  have hfault : ∀ fault, t.check = .error fault ↔ ∃ v, first v ∧ v.fault = fault := by
    intro fault
    rw [check_eq_error]
    exact exists_congr fun v => and_congr_left fun _ => (t.scan_violation?.firstWrong_iff v).symm
  refine ⟨check_eq_ok_iff, hfault, ?_, ?_⟩
  · constructor
    · rintro ⟨reference, hcheck⟩
      obtain ⟨v, hv, hreference⟩ := (hfault _).1 hcheck
      obtain ⟨role, e, rfl⟩ := Violation.fault_unknownProvider_iff.1 ⟨reference, hreference⟩
      exact ⟨role, e, hv⟩
    · rintro ⟨role, e, hv⟩
      exact ⟨_, (hfault _).2 ⟨_, hv, rfl⟩⟩
  · constructor
    · rintro ⟨reason, hcheck⟩
      obtain ⟨v, hv, hreason⟩ := (hfault _).1 hcheck
      exact ⟨v, hv, Violation.fault_configuration_iff.1 ⟨reason, hreason⟩⟩
    · rintro ⟨v, hv, hkind⟩
      obtain ⟨reason, hreason⟩ := Violation.fault_configuration_iff.2 hkind
      exact ⟨reason, (hfault _).2 ⟨v, hv, hreason⟩⟩

/-- the repeated destination comes before the source that names no provider -/
example : (⟨[⟨"p", "memory", "", .ofSecs 10⟩], [⟨"a", "t", "p"⟩, ⟨"a", "t", "q"⟩],
    [⟨"a", "t", "q"⟩]⟩ : Topology).check =
      .error (.configuration "duplicate eventDestination 'a'") := by decide

end Topology

end ForgeRelay
