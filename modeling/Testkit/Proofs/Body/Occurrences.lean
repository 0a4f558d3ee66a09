import Testkit.Proofs.Body.Control
import Testkit.Proofs.Body.Deeds

/-! Where in a history an act occurs: every moment of it is an occurrence, and so is what is done at
any place that control comes to. -/

namespace Testkit

namespace Occurs

variable {history more : List Deed} {live inner : List (List Deed)} {a : Act}

theorem ne_nil (h : Occurs history live a) : live ≠ [] := by
  cases h <;> simp

theorem followed (h : Occurs history live a) (more : List Deed) : Occurs (history ++ more) live a := by
  induction h with
  | here a after => exact .here a (after ++ more)
  | later d h ih => exact .later d ih
  | subtest name ending after h ih => exact .subtest name ending (after ++ more) h
  | sandbox ending after h ih => exact .sandbox ending (after ++ more) h

theorem preceded (h : Occurs history live a) (earlier : List Deed) :
    ∃ live', live'.length = live.length ∧ Occurs (earlier ++ history) live' a := by
  induction earlier with
  | nil => exact ⟨live, rfl, h⟩
  | cons d earlier ih =>
    obtain ⟨live', hl, h'⟩ := ih
    cases live' with
    | nil => exact absurd rfl h'.ne_nil
    | cons before inner => exact ⟨(d :: before) :: inner, hl, .later d h'⟩

theorem of_mem (h : .act a ∈ history) : ∃ live, live.length = 1 ∧ Occurs history live a := by
  obtain ⟨before, after, rfl⟩ := List.append_of_mem h
  exact (Occurs.here a after).preceded before

/-- Before an only deed nothing has been done, whatever is live in it. -/
theorem head?_of_singleton {d : Deed} (h : Occurs [d] live a) : live.head? = some [] := by
  cases h with
  | later d h => exact nomatch h
  | _ => rfl

end Occurs

mutual

theorem Deed.occurs_of_moment {path : Path} {m : Moment} {a : Act} (hm : m.event = .act a) :
    (d : Deed) → m ∈ d.moments path → ∃ live, Occurs [d] live a
  | .act b, h => by
    obtain rfl : m = ⟨path, .kept, .act b⟩ := List.mem_singleton.mp h
    obtain rfl : b = a := Event.act.inj hm
    exact ⟨_, .here b []⟩
  | .subtest name history ending, h => by
    have hinside {n : Moment} (he : n.event = .act a)
        (hn : n ∈ ⟨path.child name, .kept, .started⟩ :: momentsAll (path.child name) history ++
          [⟨path.child name, .kept, .ended ending (history.any Deed.skips)⟩]) :
        ∃ live, Occurs [.subtest name history ending] live a := by
      obtain hn | hn := List.mem_append.mp hn
      · obtain rfl | hn := List.mem_cons.mp hn
        · exact nomatch he
        · obtain ⟨live, ho⟩ := occurs_of_moment he history hn
          exact ⟨[] :: live, .subtest name ending [] ho⟩
      · obtain rfl := List.mem_singleton.mp hn
        exact nomatch he
    rw [Deed.moments] at h
    split at h
    · exact hinside hm h
    · obtain ⟨n, hn, rfl⟩ := List.mem_map.mp h
      exact hinside (n := n) hm hn
  | .sandbox history ending, h => by
    obtain h | h := List.mem_append.mp h
    · obtain ⟨n, hn, rfl⟩ := List.mem_map.mp h
      obtain ⟨live, ho⟩ := occurs_of_moment (m := n) hm history hn
      exact ⟨[] :: live, .sandbox ending [] ho⟩
    · obtain rfl := List.mem_singleton.mp h
      exact nomatch hm

theorem occurs_of_moment {path : Path} {m : Moment} {a : Act} (hm : m.event = .act a) :
    (history : List Deed) → m ∈ momentsAll path history → ∃ live, Occurs history live a
  | [], h => nomatch h
  | d :: history, h => by
    rw [momentsAll] at h
    obtain h | h := List.mem_append.mp h
    · obtain ⟨live, ho⟩ := d.occurs_of_moment hm h
      exact ⟨live, ho.followed history⟩
    · obtain ⟨live, ho⟩ := occurs_of_moment hm history h
      obtain ⟨live', -, ho'⟩ := ho.preceded [d]
      exact ⟨live', ho'⟩

end

namespace Deeds

theorem occurs_times {x : Deeds} {a : Exec} {n i : Nat} {env : Env} {s t : State}
    {live : List (List Deed)} {act : Act} (hi : i < n)
    (ht : Exec.times i a env s = (.completed, t)) (h : Occurs (x env t) live act) :
    ∃ live', live'.length = live.length ∧ Occurs (times a x n env s) live' act := by
  induction n generalizing i s with
  | zero => exact absurd hi (Nat.not_lt_zero i)
  | succ n ih =>
    rw [times, andThen]
    cases i with
    | zero =>
      obtain rfl : s = t := congrArg Prod.snd ht
      exact ⟨live, rfl, h.followed _⟩
    | succ i =>
      rw [Exec.times, Exec.andThen_eq] at ht
      by_cases ha : (a env s).1 = .completed
      · rw [if_pos ha] at ht
        obtain ⟨live', hl, h'⟩ := ih (Nat.lt_of_succ_lt_succ hi) ht
        obtain ⟨live'', hl', h''⟩ := h'.preceded (x env s)
        rw [if_pos ha]
        exact ⟨live'', hl'.trans hl, h''⟩
      · rw [if_neg ha] at ht
        exact absurd (congrArg Prod.fst ht) ha

end Deeds

namespace Control

def history (c : Control) : List Deed := deedsAll c.body c.env c.state

theorem history_cons (a : Action) (rest : List Action) (env : Env) (s : State) :
    history ⟨a :: rest, env, s⟩ = a.deeds env s ++
      if (a.exec env s).1 = .completed then history ⟨rest, env, (a.exec env s).2⟩ else [] := rfl

theorem history_singleton (a : Action) (env : Env) (s : State) :
    history ⟨[a], env, s⟩ = a.deeds env s := by
  rw [history_cons]
  split <;> exact List.append_nil _

theorem Opens.occurs {f : Frame} {a : Action} {env : Env} {s : State} {c : Control}
    (ho : Opens f a env s c) {live : List (List Deed)} {act : Act}
    (h : Occurs c.history live act) :
    ∃ live', live'.length = live.length + (if f.hasScope then 1 else 0) ∧
      Occurs (a.deeds env s) live' act := by
  cases ho with
  | subtest name body => exact ⟨_, rfl, .subtest name _ [] h⟩
  | nest name names body =>
    rw [ofSubtest, history_singleton] at h
    exact ⟨_, rfl, .subtest name _ [] h⟩
  | nested body => exact ⟨live, rfl, h⟩
  | repeated hi ht => exact Deeds.occurs_times hi ht h
  | thread body => exact ⟨live, rfl, h.followed _⟩
  | catching body rethrow => exact ⟨live, rfl, h.followed _⟩
  | expect e body => exact ⟨_, rfl, .sandbox _ _ h⟩
  | sandbox body => exact ⟨_, rfl, .sandbox _ _ h⟩

/-- Whatever is done at a place that control comes to is in the history, below as many tests as there
are around the place. -/
theorem Reaches.occurs {frames : List Frame} {c : Control} {a : Action} {rest : List Action}
    {env : Env} {s : State} (h : Reaches frames c ⟨a :: rest, env, s⟩) {act : Act}
    (ha : .act act ∈ a.deeds env s) :
    ∃ live, live.length = frames.countP Frame.hasScope + 1 ∧ Occurs c.history live act := by
  generalize hd : (⟨a :: rest, env, s⟩ : Control) = d at h
  induction h with
  | here c =>
    subst hd
    obtain ⟨live, hl, h⟩ := Occurs.of_mem ha
    exact ⟨live, hl, h.followed _⟩
  | next hb h ih =>
    obtain ⟨live, hl, h'⟩ := ih hd
    obtain ⟨live', hl', h''⟩ := h'.preceded _
    rw [history_cons, hb, if_pos rfl]
    exact ⟨live', hl'.trans hl, h''⟩
  | @inside f frames b rest' env' s' c d ho h ih =>
    obtain ⟨live, hl, h'⟩ := ih hd
    obtain ⟨live', hl', h''⟩ := ho.occurs h'
    refine ⟨live', ?_, h''.followed _⟩
    rw [hl', hl, List.countP_cons, Nat.add_right_comm]

end Control

end Testkit
