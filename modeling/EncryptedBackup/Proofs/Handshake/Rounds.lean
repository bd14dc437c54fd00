/-
Handshakes as rounds: a request and what is heard in answer to it. The rounds between two lines
follow from the frames that the server took (`rounds_of_bears`). Sending the same request up to so
many times is a list of rounds that ends as the last of them says (`conduct_retry`).
-/
import EncryptedBackup.Proofs.World.Run
import EncryptedBackup.Handshake

namespace EncryptedBackup

/-! ## Rounds -/

/-- A request that the server took, and what its client heard next. -/
structure Round where
  request : Frame
  answer : Except Error Response

namespace Line

variable {σ : Type} [Server σ]

/-- The rounds in which these frames are sent, each answer heard before the next frame, and the line
behind them. -/
def rounds (l : Line σ) : List Frame → List Round × Line σ
  | [] => ([], l)
  | f :: fs =>
    let (answer, l) := (l.give f).hear
    let (later, l) := l.rounds fs
    (⟨f, answer⟩ :: later, l)

omit [Server σ] in
/-- The frames that the server has taken on a line since it was another, oldest first. -/
def since (l l' : Line σ) : List Frame :=
  (l'.taken.take (l'.taken.length - l.taken.length)).reverse

/-- From one line to another there are these rounds and nothing else. -/
def Bears : Line σ → List Round → Line σ → Prop
  | l, [], l' => l = l'
  | l, x :: xs, l' =>
    (l.give x.request).hear.1 = x.answer ∧ (l.give x.request).hear.2.Bears xs l'

theorem Bears.append : ∀ (xs : List Round) {ys : List Round} {l m n : Line σ},
    l.Bears xs m → m.Bears ys n → l.Bears (xs ++ ys) n
  | [], _, _, _, _, first, second => by
    cases first
    exact second
  | _ :: xs, _, _, _, _, first, second => ⟨first.1, Bears.append xs first.2 second⟩

theorem Bears.ready : ∀ (xs : List Round) {l m : Line σ}, l.Bears xs m → l.Ready → m.Ready
  | [], _, _, h, ready => by
    cases h
    exact ready
  | x :: xs, _, _, h, ready => Bears.ready xs h.2 (hear_ready (give_ready ready x.request))

theorem Bears.steady : ∀ (xs : List Round) {l m : Line σ}, l.Bears xs m → l.Steady → m.Steady
  | [], _, _, h, steady => by
    cases h
    exact steady
  | x :: xs, _, _, h, steady => Bears.steady xs h.2 (steady.give x.request).hear

theorem Bears.taken : ∀ (xs : List Round) {l m : Line σ}, l.Bears xs m →
    m.taken = (xs.map Round.request).reverse ++ l.taken
  | [], _, _, h => by
    cases h
    rfl
  | x :: xs, l, m, h => by
    rw [Bears.taken xs h.2, hear_taken, give_taken]
    simp

omit [Server σ] in
theorem since_of_taken {fs : List Frame} {l m : Line σ} (h : m.taken = fs.reverse ++ l.taken) :
    l.since m = fs := by
  unfold Line.since
  rw [h]
  simp

theorem Bears.since {xs : List Round} {l m : Line σ} (h : l.Bears xs m) :
    l.since m = xs.map Round.request :=
  since_of_taken h.taken

theorem Bears.rounds : ∀ (xs : List Round) {l m : Line σ}, l.Bears xs m →
    l.rounds (xs.map Round.request) = (xs, m)
  | [], _, _, h => by
    cases h
    rfl
  | x :: xs, l, m, h => by
    have later := Bears.rounds xs h.2
    unfold Line.rounds
    rw [List.map_cons]
    simp only [later, h.1]

end Line

namespace World

variable {σ : Type} [Server σ]

/-- The rounds between two worlds. -/
def rounds (w w' : World σ) : List Round := (w.line.rounds (w.line.since w'.line)).1

theorem rounds_of_bears {w w' : World σ} {xs : List Round} (h : w.line.Bears xs w'.line) :
    w.rounds w' = xs := by
  unfold rounds
  rw [h.since, h.rounds]

end World

/-! ## What comes of a handshake -/

namespace World

variable {κ σ α β : Type}

/-- What comes of a step of a handshake, with the session and the world behind it. -/
def conduct (w : World σ) (s : Session κ) (x : Handshake κ (InWorld σ) α) :
    Except Error α × Session κ × World σ :=
  let ((outcome, s), w) := StateT.run (StateT.run (ExceptT.run x) s) w
  (outcome, s, w)

section

variable {w w' : World σ} {s s' : Session κ} {x : Handshake κ (InWorld σ) α}
  {f : α → Handshake κ (InWorld σ) β}

theorem conduct_bind : w.conduct s (x >>= f) =
    match w.conduct s x with
    | (.ok a, s', w') => w'.conduct s' (f a)
    | (.error e, s', w') => (.error e, s', w') := by
  unfold conduct
  rw [run_run_bind]
  rcases StateT.run (StateT.run (ExceptT.run x) s) w with ⟨⟨e | a, s'⟩, w'⟩
  · rfl
  · rfl

theorem conduct_bind_of_ok {a : α} (h : w.conduct s x = (.ok a, s', w')) :
    w.conduct s (x >>= f) = w'.conduct s' (f a) := by
  rw [conduct_bind, h]

theorem conduct_bind_of_error {e : Error} (h : w.conduct s x = (.error e, s', w')) :
    w.conduct s (x >>= f) = (.error e, s', w') := by
  rw [conduct_bind, h]

end

theorem conduct_get (w : World σ) (s : Session κ) : w.conduct s get = (.ok s, s, w) := rfl

theorem conduct_modify (w : World σ) (s : Session κ) (f : Session κ → Session κ) :
    w.conduct s (modify f) = (.ok (), f s, w) := rfl

theorem conduct_enter (w : World σ) (s : Session κ) (phase : Phase) :
    w.conduct s (Handshake.enter phase) = (.ok (), { s with phase }, w) := rfl

theorem conduct_settle (w : World σ) (s : Session κ) (x : Except Error α) :
    w.conduct s (Handshake.settle x) = (x, s, w) := rfl

theorem conduct_perform (w : World σ) (s : Session κ) (x : Act (InWorld σ) α) :
    w.conduct s (Handshake.perform x) = ((w.run x).1, s, (w.run x).2) := rfl

/-- What comes of a handshake, as an action that cannot fail. -/
theorem run_of_conduct {w w' : World σ} {s s' : Session κ} {x : Handshake κ (InWorld σ) α}
    {outcome : Except Error α} (ran : w.conduct s x = (outcome, s', w')) :
    w.run (Act.sure (x.run s)) = (.ok (outcome, s'), w') := by
  rw [run_sure]
  unfold conduct at ran
  cases ran
  rfl

variable [Server σ]

theorem conduct_log (w : World σ) (s : Session κ) (e : Event) :
    w.conduct s (Handshake.log e) = (.ok (), s, w.talked w.line (e :: w.log)) := rfl

/-- A request that is refused is no round; any other is one round. -/
theorem run_exchange {w : World σ} (ready : w.line.Ready) {r : Request} {f : Frame}
    (writes : r.Writes f) : ∃ log, w.run (exchange r) = match w.line.refusal with
      | some fault => (.error (.line fault), w.talked w.line log)
      | none => ((w.line.give f).hear.1, w.talked (w.line.give f).hear.2 log) := by
  obtain ⟨log, sent⟩ := run_sendRequest ready writes
  unfold exchange
  cases refused : w.line.refusal with
  | some fault =>
    rw [refused] at sent
    exact ⟨log, run_bind_of_error sent⟩
  | none =>
    rw [refused] at sent
    obtain ⟨log', read⟩ := (w.talked (w.line.give f) log).run_readResponse
    exact ⟨log', (run_bind_of_ok sent).trans read⟩

end World

/-! ## Trying again -/

namespace Handshake

variable {κ σ α : Type}

/-- What a step makes of a response: it may end the tries, or ask for another one and leave the
session as it is. -/
structure Judges (judge : Nat → Response → Handshake κ (InWorld σ) (Option α))
    (J : Response → Session κ → Except Error (Option α) → Session κ → Prop) : Prop where
  judged : ∀ i r s (w : World σ), ∃ outcome s' log,
    w.conduct s (judge i r) = (outcome, s', w.talked w.line log) ∧ J r s outcome s'
  again : ∀ {r s s'}, J r s (.ok none) s' → s' = s

/-- The rounds of up to `left` tries of one request, and how they end: refused, unheard, judged, or
with no tries left. No request is refused if `taking`: then the line takes them all. -/
inductive Tries (taking : Prop) (f : Frame)
    (J : Response → Session κ → Except Error (Option α) → Session κ → Prop) (s : Session κ) :
    (left : Nat) → List Round → Except Error (Option α) → Session κ → Prop where
  | exhausted : Tries taking f J s 0 [] (.ok none) s
  | refused {left : Nat} (closed : ¬ taking) (fault : Fault) :
    Tries taking f J s (left + 1) [] (.error (.line fault)) s
  | unheard {left : Nat} (e : Error) : Tries taking f J s (left + 1) [⟨f, .error e⟩] (.error e) s
  | judged {left : Nat} {r : Response} {outcome : Except Error (Option α)} {s' : Session κ}
    (h : J r s outcome s') (settled : outcome ≠ .ok none) :
    Tries taking f J s (left + 1) [⟨f, .ok r⟩] outcome s'
  | again {left : Nat} {r : Response} {xs : List Round} {outcome : Except Error (Option α)}
    {s' : Session κ} (h : J r s (.ok none) s) (later : Tries taking f J s left xs outcome s') :
    Tries taking f J s (left + 1) (⟨f, .ok r⟩ :: xs) outcome s'

variable {taking : Prop}

/-- What the tries of a request leave as it was. -/
theorem Tries.keeps {f : Frame} {s : Session κ}
    {J : Response → Session κ → Except Error (Option α) → Session κ → Prop}
    {P : Session κ → Prop} (verdict : ∀ {r outcome s'}, J r s outcome s' → P s') (start : P s)
    {left : Nat} {xs : List Round} {outcome : Except Error (Option α)} {s' : Session κ}
    (tries : Tries taking f J s left xs outcome s') : P s' := by
  induction tries with
  | exhausted | refused | unheard => exact start
  | judged h settled => exact verdict h
  | again h later ih => exact ih

/-- All tries are of the same request. -/
theorem Tries.request {f : Frame} {s : Session κ}
    {J : Response → Session κ → Except Error (Option α) → Session κ → Prop} {left : Nat}
    {xs : List Round} {outcome : Except Error (Option α)} {s' : Session κ}
    (tries : Tries taking f J s left xs outcome s') : ∀ x ∈ xs, x.request = f := by
  induction tries with
  | exhausted | refused => nofun
  | unheard | judged =>
    intro x mem
    rw [List.mem_singleton.1 mem]
  | again h later ih =>
    intro x mem
    rcases List.mem_cons.1 mem with rfl | mem
    · rfl
    · exact ih x mem

/-- Tries that settle something end with the response that did. -/
theorem Tries.settled {f : Frame} {s s' : Session κ}
    {J : Response → Session κ → Except Error (Option α) → Session κ → Prop} {a : α}
    {outcome : Except Error (Option α)} (this : outcome = .ok (some a)) {left : Nat}
    {xs : List Round} (tries : Tries taking f J s left xs outcome s') :
    ∃ ys r, xs = ys ++ [⟨f, .ok r⟩] ∧ J r s (.ok (some a)) s' := by
  induction tries with
  | exhausted | refused | unheard => cases this
  | judged h settled => exact ⟨[], _, rfl, this ▸ h⟩
  | again h later ih =>
    obtain ⟨ys, r, rfl, judged⟩ := ih this
    exact ⟨_ :: ys, r, rfl, judged⟩

/-- Every answer among the tries was judged: it asked for another try or ended them. -/
theorem Tries.answered {f : Frame} {s s' : Session κ}
    {J : Response → Session κ → Except Error (Option α) → Session κ → Prop} {left : Nat}
    {xs : List Round} {outcome : Except Error (Option α)}
    (tries : Tries taking f J s left xs outcome s') {x : Round} (mem : x ∈ xs) {r : Response}
    (answered : x.answer = .ok r) : ∃ o s₁, J r s o s₁ ∧ (o = .ok none ∨ o = outcome) := by
  induction tries with
  | exhausted | refused => cases mem
  | unheard e =>
    cases List.mem_singleton.1 mem
    cases answered
  | judged h settled =>
    cases List.mem_singleton.1 mem
    cases answered
    exact ⟨_, _, h, .inr rfl⟩
  | again h later ih =>
    rcases List.mem_cons.1 mem with rfl | mem
    · cases answered
      exact ⟨_, _, h, .inl rfl⟩
    · exact ih mem

variable [Server σ]

/-- Sending a request up to so many times is a matter of rounds. The first is there if the line
takes a request at all. -/
theorem conduct_retry {judge : Nat → Response → Handshake κ (InWorld σ) (Option α)}
    {J : Response → Session κ → Except Error (Option α) → Session κ → Prop}
    (judges : Judges judge J) {request : Request} {f : Frame} (writes : request.Writes f) :
    ∀ (left attempt : Nat) (s : Session κ) (w : World σ), w.line.Ready →
    (taking → w.line.Steady) → ∃ xs outcome s' l log,
      w.conduct s (retry (fun i => do judge i (← perform (exchange request))) left attempt) =
        (outcome, s', w.talked l log) ∧
      w.line.Bears xs l ∧ Tries taking f J s left xs outcome s' ∧
      (w.line.refusal = none → 0 < left → xs ≠ [])
  | 0, _, s, w, _, _ => ⟨[], .ok none, s, w.line, w.log, rfl, rfl, .exhausted, fun _ _ => by omega⟩
  | left + 1, attempt, s, w, ready, promise => by
    obtain ⟨log, ran⟩ := World.run_exchange ready writes
    have performed := w.conduct_perform s (exchange request)
    unfold retry
    cases refused : w.line.refusal with
    | some fault =>
      rw [ran, refused] at performed
      exact ⟨[], _, _, _, _, World.conduct_bind_of_error (World.conduct_bind_of_error performed),
        rfl, .refused (fun h => by rw [(promise h).refusal] at refused; cases refused) fault, nofun⟩
    | none =>
      rw [ran, refused] at performed
      simp only at performed
      cases heard : (w.line.give f).hear.1 with
      | error e =>
        rw [heard] at performed
        exact ⟨[⟨f, .error e⟩], _, _, _, _,
          World.conduct_bind_of_error (World.conduct_bind_of_error performed), ⟨heard, rfl⟩,
          .unheard e, nofun⟩
      | ok r =>
        rw [heard] at performed
        obtain ⟨outcome, s', log', judged, h⟩ :=
          judges.judged attempt r s (w.talked (w.line.give f).hear.2 log)
        have body := (World.conduct_bind_of_ok performed).trans judged
        -- only an answer that settles nothing leads to another try
        match outcome, h with
        | .error e, h =>
          exact ⟨[⟨f, .ok r⟩], _, _, _, _, World.conduct_bind_of_error body, ⟨heard, rfl⟩,
            .judged h nofun, nofun⟩
        | .ok (some a), h =>
          exact ⟨[⟨f, .ok r⟩], _, _, _, _, World.conduct_bind_of_ok body, ⟨heard, rfl⟩,
            .judged h nofun, nofun⟩
        | .ok none, h =>
          cases judges.again h
          obtain ⟨xs, outcome, s', l, log'', later, bears, tries, -⟩ :=
            conduct_retry judges writes left (attempt + 1) s
              (w.talked (w.line.give f).hear.2 log') (Line.hear_ready (Line.give_ready ready f))
              (fun h => ((promise h).give f).hear)
          exact ⟨⟨f, .ok r⟩ :: xs, outcome, s', l, log'',
            (World.conduct_bind_of_ok body).trans later, ⟨heard, bears⟩, .again h tries, nofun⟩

end Handshake

end EncryptedBackup
