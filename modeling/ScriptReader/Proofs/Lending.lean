import Mathlib.Data.List.Nodup
import ScriptReader.Lending

/-! # What an owner sees of its scanner

Scanners go from owner to owner by way of the pool, at arbitrary places of their texts. Each owner
nevertheless sees only its own requests: the scanner it holds is the one it would have made for
itself and never shared. The history of requests alone says which owners hold a scanner and how many
scanners there have to be: never more are made than were lent at the same time, and none is lost.
-/

namespace ScriptReader.Lending

namespace Request

/-- The owner that makes the request. -/
def owner : Request → String
  | .acquire owner _ => owner
  | .next owner => owner
  | .reset owner => owner
  | .load owner _ => owner
  | .release owner => owner
  | .parse owner => owner

/-- What the request makes of a scanner that belongs to its owner alone, if there is one. -/
def apply (own : Option Scanner) : Request → Option Scanner
  | .acquire _ text => some (.ofString text)
  | .next _ => own.map fun scanner => scanner.next.2
  | .reset _ => own.map Scanner.reset
  | .load _ text => own.map fun scanner => scanner.load text
  | .release _ => none
  | .parse _ => none

/-- What the request is answered by a scanner that belongs to its owner alone. Nothing is asked of a
scanner that is not there. -/
def answer? (own : Option Scanner) : Request → Option Answer
  | .acquire _ _ => some .silent
  | .next _ => own.map fun scanner => .token scanner.next.1
  | .reset _ => own.map fun _ => .silent
  | .load _ _ => own.map fun _ => .silent
  | .release _ => own.map fun _ => .silent
  | .parse _ => own.map fun scanner =>
    .parsed (ScriptReader.parse scanner).1 (ScriptReader.parse scanner).2

end Request

/-- The scanner that an owner would have if every text it acquires were given a new one. Only its
own requests count. -/
def own (owner : String) (history : List Request) : Option Scanner :=
  history.foldl (fun own request => if request.owner = owner then request.apply own else own) none

/-- Who holds a scanner, and the largest number of scanners held at the same time so far. -/
structure Census where
  owners : List String := []
  most : Nat := 0

/-- An owner that acquires a scanner while it holds another one has both for a moment. -/
def Census.count (census : Census) : Request → Census
  | .acquire owner _ =>
    ⟨owner :: census.owners.erase owner, max census.most (census.owners.length + 1)⟩
  | .release owner => { census with owners := census.owners.erase owner }
  | .parse owner => { census with owners := census.owners.erase owner }
  | _ => census

def census (history : List Request) : Census := history.foldl Census.count {}

/-- The histories in which an owner asks nothing of a scanner that it does not hold. -/
inductive Admissible : List Request → Prop
  | nil : Admissible []
  | concat {history : List Request} {request : Request} (past : Admissible history)
      (answered : (request.answer? (own request.owner history)).isSome) :
      Admissible (history ++ [request])

/-- The lending after some requests, if all of them are answered. -/
def replay? (lending : Lending) : List Request → Option Lending
  | [] => some lending
  | request :: rest => (lending.perform? request).bind fun answered => replay? answered.2 rest

theorem replay?_concat (lending : Lending) (history : List Request) (request : Request) :
    replay? lending (history ++ [request]) =
      (replay? lending history).bind fun last => (last.perform? request).map Prod.snd := by
  induction history generalizing lending with
  | nil =>
    rw [List.nil_append, replay?, replay?, Option.bind_some]
    cases lending.perform? request <;> rfl
  | cons first rest ih => simp only [List.cons_append, replay?, ih, Option.bind_assoc]

theorem own_concat (owner : String) (history : List Request) (request : Request) :
    own owner (history ++ [request]) =
      if request.owner = owner then request.apply (own owner history) else own owner history := by
  rw [own, List.foldl_concat, ← own]

theorem census_concat (history : List Request) (request : Request) :
    census (history ++ [request]) = (census history).count request :=
  List.foldl_concat ..

/-! ### The scanners that are lent -/

section Entries

variable {α : Type} (entries : List (String × α)) (owner other : String)

theorem lookup_cons_eq_ite (value : α) :
    ((owner, value) :: entries).lookup other =
      if owner = other then some value else entries.lookup other := by
  by_cases same : owner = other
  · rw [same, List.lookup_cons_self, if_pos rfl]
  · rw [List.lookup_cons, beq_false_of_ne (Ne.symm same), if_neg same]

theorem lookup_filter_ne :
    (entries.filter fun entry => entry.1 ≠ owner).lookup other =
      if owner = other then none else entries.lookup other := by
  induction entries with
  | nil => simp
  | cons entry entries ih =>
    obtain ⟨name, value⟩ := entry
    rw [lookup_cons_eq_ite]
    by_cases named : name = owner
    · rw [List.filter_cons_of_neg (by simpa using named), ih, named]
      split <;> rfl
    · rw [List.filter_cons_of_pos (by simpa using named), lookup_cons_eq_ite, ih]
      split_ifs with first second
      · exact absurd (first.trans second.symm) named
      · rfl
      · rfl
      · rfl

theorem lookup_replace (value : α) :
    (entries.map fun entry => if entry.1 = owner then (owner, value) else entry).lookup other =
      if owner = other then (entries.lookup other).map fun _ => value
      else entries.lookup other := by
  induction entries with
  | nil => simp
  | cons entry entries ih =>
    obtain ⟨name, held⟩ := entry
    rw [List.map_cons, lookup_cons_eq_ite]
    by_cases named : name = owner
    · rw [if_pos named, lookup_cons_eq_ite, ih, named]
      split_ifs <;> rfl
    · rw [if_neg named, lookup_cons_eq_ite, ih]
      split_ifs with first second
      · exact absurd (first.trans second.symm) named
      · rfl
      · rfl
      · rfl

theorem isSome_lookup_iff :
    (entries.lookup owner).isSome ↔ owner ∈ entries.map Prod.fst := by
  induction entries with
  | nil => simp
  | cons entry entries ih =>
    obtain ⟨name, value⟩ := entry
    rw [lookup_cons_eq_ite, List.map_cons, List.mem_cons]
    split_ifs with same
    · simp [same]
    · simp [ih, Ne.symm same]

end Entries

variable (lending : Lending) (owner other : String) (scanner : Scanner)

theorem held?_update : (lending.update owner scanner).held? other =
    if owner = other then (lending.held? other).map fun _ => scanner else lending.held? other :=
  lookup_replace ..

@[simp] theorem map_fst_update :
    (lending.update owner scanner).lent.map Prod.fst = lending.lent.map Prod.fst := by
  rw [update, List.map_map]
  apply List.map_congr_left
  intro entry _
  rw [Function.comp_apply]
  split_ifs with named
  · exact named.symm
  · rfl

/-- An owner that holds no scanner has none to give back. -/
theorem lent_giveBack :
    (lending.giveBack owner).lent = lending.lent.filter fun entry => entry.1 ≠ owner := by
  unfold giveBack
  split
  · rfl
  · next missing =>
    symm
    rw [List.filter_eq_self]
    intro entry among
    have absent := (isSome_lookup_iff lending.lent owner).not
    rw [show lending.lent.lookup owner = none from missing] at absent
    simp only [Option.isSome_none, Bool.false_eq_true, not_false_eq_true, true_iff] at absent
    rw [decide_eq_true_eq]
    rintro rfl
    exact absent (List.mem_map_of_mem among)

theorem held?_giveBack :
    (lending.giveBack owner).held? other = if owner = other then none else lending.held? other := by
  rw [held?, lent_giveBack]
  exact lookup_filter_ne ..

/-- The others keep what they hold. -/
theorem map_fst_giveBack (distinct : (lending.lent.map Prod.fst).Nodup) :
    (lending.giveBack owner).lent.map Prod.fst = (lending.lent.map Prod.fst).erase owner := by
  rw [lent_giveBack, distinct.erase_eq_filter, List.filter_map]
  congr 1
  apply List.filter_congr
  intro entry _
  rw [Bool.eq_iff_iff]
  simp

/-- What is given back is emptied. -/
theorem mem_idle_giveBack (waits : scanner ∈ (lending.giveBack owner).pool.idle) :
    scanner = .empty ∨ scanner ∈ lending.pool.idle := by
  unfold giveBack at waits
  split at waits
  · exact List.mem_cons.mp waits
  · exact .inr waits

/-- A scanner that is given back is lent no longer but waits in the pool. -/
theorem idleCount_giveBack (distinct : (lending.lent.map Prod.fst).Nodup) :
    (lending.giveBack owner).pool.idleCount + (lending.giveBack owner).lent.length =
      lending.pool.idleCount + lending.lent.length := by
  have fewer := congrArg List.length (map_fst_giveBack lending owner distinct)
  have held := isSome_lookup_iff lending.lent owner
  rw [List.length_map, List.length_erase, List.length_map] at fewer
  rw [fewer]
  unfold giveBack held?
  cases found : lending.lent.lookup owner with
  | none =>
    rw [found] at held
    rw [if_neg fun among => Bool.false_ne_true (held.mpr among)]
  | some scanner =>
    rw [found] at held
    have among := held.mp rfl
    have some_lent : 0 < lending.lent.length := by
      rw [← List.length_map (f := Prod.fst)]
      exact List.length_pos_of_mem among
    rw [if_pos among, Pool.idleCount, Pool.idle_release, List.length_cons, Pool.idleCount]
    omega

theorem perform?_acquire (text : String) :
    lending.perform? (.acquire owner text) =
      some (.silent,
        let returned := giveBack { lending with pool := (lending.pool.acquire text).2 } owner
        { returned with lent := (owner, .ofString text) :: returned.lent }) := by
  rw [← Pool.acquire_fst lending.pool text]
  rfl

/-! ### Step by step -/

/-- The lending is as its history says. -/
structure Follows (lending : Lending) (history : List Request) : Prop where
  held (owner : String) : lending.held? owner = own owner history
  idle : ∀ scanner ∈ lending.pool.idle, scanner = .empty
  owners : lending.lent.map Prod.fst = (census history).owners
  distinct : (lending.lent.map Prod.fst).Nodup
  conserved : lending.pool.idleCount + lending.lent.length = (census history).most

namespace Follows

variable {lending : Lending} {history : List Request}

theorem nil : Follows {} [] where
  held _ := rfl
  idle := nofun
  owners := rfl
  distinct := .nil
  conserved := rfl

/-- A request is answered as by a scanner that only its owner knows. -/
theorem perform?_fst (follows : lending.Follows history) (request : Request) :
    (lending.perform? request).map Prod.fst = request.answer? (own request.owner history) := by
  rw [← follows.held]
  cases request with
  | acquire => rfl
  | next owner | reset owner | load owner | release owner | parse owner =>
    simp only [perform?, Request.answer?, Request.owner]
    cases lending.held? owner <;> rfl

/-- A change of a scanner matters to its owner only. -/
theorem update (follows : lending.Follows history) (request : Request) {scanner changed : Scanner}
    (held : lending.held? request.owner = some scanner)
    (made : request.apply (some scanner) = some changed)
    (counted : (census history).count request = census history) :
    (lending.update request.owner changed).Follows (history ++ [request]) where
  held other := by
    rw [held?_update, own_concat, ← follows.held]
    split_ifs with same
    · rw [← same, held, made]
      rfl
    · rfl
  idle := follows.idle
  owners := by rw [map_fst_update, census_concat, counted, follows.owners]
  distinct := by
    rw [map_fst_update]
    exact follows.distinct
  conserved := by
    have same : (lending.update request.owner changed).lent.length = lending.lent.length :=
      List.length_map ..
    rw [census_concat, counted, same]
    exact follows.conserved

/-- A scanner that is given back is none of its owner's any more. -/
theorem giveBack (follows : lending.Follows history) (request : Request)
    (gone : request.apply (own request.owner history) = none)
    (counted : (census history).count request =
      { census history with owners := (census history).owners.erase request.owner }) :
    (lending.giveBack request.owner).Follows (history ++ [request]) where
  held other := by
    rw [held?_giveBack, own_concat, follows.held]
    split_ifs with same
    · rw [← same, gone]
    · rfl
  idle scanner waits := (mem_idle_giveBack _ _ _ waits).elim id (follows.idle scanner)
  owners := by
    rw [map_fst_giveBack _ _ follows.distinct, census_concat, counted, follows.owners]
  distinct := by
    rw [map_fst_giveBack _ _ follows.distinct]
    exact follows.distinct.erase _
  conserved := by
    rw [idleCount_giveBack _ _ follows.distinct, census_concat, counted]
    exact follows.conserved

/-- A scanner is taken from those that wait, if there are any, and lent. What its owner held before is
given back after that. -/
theorem acquire (follows : lending.Follows history) (owner text : String) {taken : Lending}
    (waiting : taken.pool.idle = lending.pool.idle.tail) (lent : taken.lent = lending.lent) :
    Lending.Follows
      { taken.giveBack owner with lent := (owner, .ofString text) :: (taken.giveBack owner).lent }
      (history ++ [.acquire owner text]) := by
  have distinct : (taken.lent.map Prod.fst).Nodup := lent ▸ follows.distinct
  have names := map_fst_giveBack taken owner distinct
  rw [lent, follows.owners] at names
  constructor
  · intro other
    have held : taken.held? other = own other history := by
      rw [held?, lent]
      exact follows.held other
    rw [held?, lookup_cons_eq_ite, own_concat, ← held, Request.owner]
    split_ifs with same
    · rfl
    · exact (held?_giveBack taken owner other).trans (if_neg same)
  · intro scanner waits
    refine (mem_idle_giveBack taken owner scanner waits).elim id fun waited => ?_
    rw [waiting] at waited
    exact follows.idle scanner (List.mem_of_mem_tail waited)
  · rw [List.map_cons, names, census_concat]
    rfl
  · rw [List.map_cons, names, ← follows.owners]
    exact (follows.distinct.erase owner).cons follows.distinct.not_mem_erase
  · have count := idleCount_giveBack taken owner distinct
    have before := follows.conserved
    have crowd := congrArg List.length follows.owners
    rw [List.length_map] at crowd
    rw [Pool.idleCount, Pool.idleCount, waiting, List.length_tail, lent] at count
    rw [Pool.idleCount] at before
    rw [census_concat]
    change (taken.giveBack owner).pool.idle.length + ((taken.giveBack owner).lent.length + 1) =
      max (census history).most ((census history).owners.length + 1)
    omega

/-- Whatever request is answered, the lending goes on as its history says. -/
theorem perform? (follows : lending.Follows history) {request : Request} {answer : Answer}
    {later : Lending} (performed : lending.perform? request = some (answer, later)) :
    later.Follows (history ++ [request]) := by
  cases request with
  | acquire owner text =>
    rw [perform?_acquire] at performed
    cases performed
    exact follows.acquire owner text (Pool.idle_acquire _ _) rfl
  | next owner =>
    obtain ⟨scanner, held, ⟨⟩⟩ := Option.bind_eq_some_iff.mp performed
    exact follows.update (.next owner) held rfl rfl
  | reset owner =>
    obtain ⟨scanner, held, ⟨⟩⟩ := Option.bind_eq_some_iff.mp performed
    exact follows.update (.reset owner) held rfl rfl
  | load owner text =>
    obtain ⟨scanner, held, ⟨⟩⟩ := Option.bind_eq_some_iff.mp performed
    exact follows.update (.load owner text) held rfl rfl
  | release owner =>
    obtain ⟨scanner, held, ⟨⟩⟩ := Option.bind_eq_some_iff.mp performed
    exact follows.giveBack (.release owner) rfl rfl
  | parse owner =>
    obtain ⟨scanner, held, ⟨⟩⟩ := Option.bind_eq_some_iff.mp performed
    exact follows.giveBack (.parse owner) rfl rfl

end Follows

/-- A history in which nobody asks for what it does not have is replayed to the end. -/
theorem Admissible.follows {history : List Request} (admissible : Admissible history) :
    ∃ lending, replay? {} history = some lending ∧ lending.Follows history := by
  induction admissible with
  | nil => exact ⟨{}, rfl, .nil⟩
  | @concat history request past answered ih =>
    obtain ⟨lending, ran, follows⟩ := ih
    rw [← follows.perform?_fst, Option.isSome_map, Option.isSome_iff_exists] at answered
    obtain ⟨⟨answer, later⟩, performed⟩ := answered
    refine ⟨later, ?_, follows.perform? performed⟩
    rw [replay?_concat, ran, Option.bind_some, performed]
    rfl

/-- An owner holds the scanner that it would have made for itself, and every request is answered as
that scanner would answer it, whatever other owners have done. What waits in the pool is empty, and
with those that are lent there are as many scanners as have ever been lent at the same time. -/
theorem lending_isolated (history : List Request) (admissible : Admissible history) :
    ∃ lending, replay? {} history = some lending ∧
      (∀ owner, lending.held? owner = own owner history) ∧
      (∀ request, (lending.perform? request).map Prod.fst =
        request.answer? (own request.owner history)) ∧
      (∀ scanner ∈ lending.pool.idle, scanner = .empty) ∧
      (lending.lent.map Prod.fst).Nodup ∧
      lending.lent.map Prod.fst = (census history).owners ∧
      lending.pool.idleCount + lending.lent.length = (census history).most := by
  obtain ⟨lending, ran, follows⟩ := admissible.follows
  exact ⟨lending, ran, follows.held, follows.perform?_fst, follows.idle, follows.distinct,
    follows.owners, follows.conserved⟩

/-- A scanner that is given back half read serves its next owner like a new one, while another owner
goes on with its own. -/
theorem lending_isolated_recycled :
    ∃ lending, replay? {} [.acquire "a" "x y", .acquire "b" "z;", .next "a", .release "a",
        .acquire "c" "w;"] = some lending ∧
      lending.held? "c" = some (.ofString "w;") ∧
      (lending.perform? (.parse "b")).map Prod.fst =
        some (.parsed (parseText "z;").1 (parseText "z;").2) ∧
      lending.pool.idleCount + lending.lent.length = 2 := by
  have first : Admissible [.acquire "a" "x y"] := .concat .nil rfl
  have second : Admissible [.acquire "a" "x y", .acquire "b" "z;"] := .concat first rfl
  have third : Admissible [.acquire "a" "x y", .acquire "b" "z;", .next "a"] := .concat second rfl
  have fourth : Admissible [.acquire "a" "x y", .acquire "b" "z;", .next "a", .release "a"] :=
    .concat third rfl
  obtain ⟨lending, ran, held, answers, -, -, -, conserved⟩ :=
    lending_isolated _ (@Admissible.concat _ (.acquire "c" "w;") fourth rfl)
  exact ⟨lending, ran, held "c", answers (.parse "b"), conserved⟩

end ScriptReader.Lending
