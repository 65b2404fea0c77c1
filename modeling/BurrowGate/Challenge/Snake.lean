import BurrowGate.Js.Value
import BurrowGate.Lib.Run
import Mathlib.Data.List.Chain
import Mathlib.Data.List.GetD
import Mathlib.Data.List.Perm.Basic

/-!
# The snake challenge

The engine of the server (`snake-engine.ts`) and its copy in the browser (`snake.js`), with the
checks of the settings in `snake.ts`. What the two have word for word is here once; the replay and
the step are not the same text. A cell of the list that does not exist is `none`, as `undefined`
is in the source.
-/

namespace BurrowGate.Snake

open Js
open Lib.Run (Always Meets always_iff_meets always_of_meets meets_of_forall)

abbrev Text : Type := List Char

/-! ## The settings -/

def MIN_GRID_SIZE : Nat := 10

def MAX_GRID_SIZE : Nat := 40

def MIN_APPLES : Nat := 1

def MAX_APPLES : Nat := 30

def MIN_TICK_MS : Nat := 60

def MAX_TICK_MS : Nat := 500

def DEFAULT_TICK_MS : Nat := 150

/-- A field that must be a whole number in a range. -/
def integerConfig (config : Entries) (key : String) (minimum maximum : Nat) (message : String) :
    Except Text Nat :=
  match (config.get key.toList).toNumber with
  | some value =>
      if value.den = 1 ∧ (minimum : ℚ) ≤ value ∧ value ≤ (maximum : ℚ) then .ok value.num.toNat
      else .error message.toList
  | none => .error message.toList

def gridSize (config : Entries) : Except Text Nat :=
  integerConfig config "gridSize" MIN_GRID_SIZE MAX_GRID_SIZE
    "Snake grid size must be an integer from 10 to 40"

def applesRequired (config : Entries) : Except Text Nat :=
  integerConfig config "applesRequired" MIN_APPLES MAX_APPLES
    "Snake apples required must be an integer from 1 to 30"

def tickMs (config : Entries) : Except Text Nat :=
  match config.get "tickMs".toList with
  | .undefined => .ok DEFAULT_TICK_MS
  | _ =>
      integerConfig config "tickMs" MIN_TICK_MS MAX_TICK_MS
        "Snake speed must be an integer from 60 to 500 milliseconds"

def isHexDigit (c : Char) : Bool :=
  ('0' ≤ c && c ≤ '9') || ('a' ≤ c && c ≤ 'f') || ('A' ≤ c && c ≤ 'F')

/-- `/^#[0-9a-fA-F]{6}$/` -/
def isHexColor : Text → Bool
  | '#' :: digits => digits.length = 6 && digits.all isHexDigit
  | _ => false

def hexColorConfig (config : Entries) (key fallback : String) : Except Text Text :=
  match config.get key.toList with
  | .undefined => .ok fallback.toList
  | .string value =>
      if isHexColor value then .ok value
      else .error (key.toList ++ " must be a 6-digit hex color (e.g. #7c3aed)".toList)
  | _ => .error (key.toList ++ " must be a 6-digit hex color (e.g. #7c3aed)".toList)

def validateConfig (config : Entries) : Except Text Unit := do
  let _ ← gridSize config
  let _ ← applesRequired config
  let _ ← tickMs config
  let _ ← hexColorConfig config "backgroundColor" "#0b1220"
  let _ ← hexColorConfig config "appleColor" "#22d3ee"
  let _ ← hexColorConfig config "snakeColor" "#7c3aed"
  let _ ← hexColorConfig config "snakeHeadColor" "#a78bfa"
  return ()

/-! ## The board -/

inductive Direction
  | U
  | D
  | L
  | R
  deriving DecidableEq

namespace Direction

/-- `DIRECTION_DELTA` -/
def delta : Direction → Int × Int
  | U => (0, -1)
  | D => (0, 1)
  | L => (-1, 0)
  | R => (1, 0)

def opposite : Direction → Direction
  | U => D
  | D => U
  | L => R
  | R => L

end Direction

/-- A draw is the numerator of the quotient by `2 ^ 32`; the second value is the next `t`. -/
def mulberry32 (t : UInt32) : UInt32 × UInt32 :=
  let t := t + 0x6d2b79f5
  let r := (t ^^^ (t >>> 15)) * (1 ||| t)
  let r := (r + (r ^^^ (r >>> 7)) * (61 ||| r)) ^^^ r
  (r ^^^ (r >>> 14), t)

/-- `Math.floor(rng() * (index + 1))`; the factor is so small that the double is exact. -/
def drawIndex (draw : UInt32) (index : Nat) : Nat := draw.toNat * (index + 1) / 4294967296

def swapCells (cells : List Nat) (index swapIndex : Nat) : List Nat :=
  (cells.set index (cells.getD swapIndex 0)).set swapIndex (cells.getD index 0)

/-- The loop, from `index` down. -/
def shuffleFrom : Nat → UInt32 → List Nat → List Nat
  | 0, _, cells => cells
  | index + 1, t, cells =>
      let (draw, t) := mulberry32 t
      shuffleFrom index t (swapCells cells (index + 1) (drawIndex draw (index + 1)))

def shuffledCells (gridSize : Nat) (seed : UInt32) : List Nat :=
  shuffleFrom (gridSize * gridSize - 1) seed (List.range (gridSize * gridSize))

def cellIndex (x y gridSize : Nat) : Nat := x + y * gridSize

def initialBody (gridSize : Nat) : List Nat :=
  let headX := gridSize / 2
  let headY := gridSize / 2
  [cellIndex headX headY gridSize, cellIndex (headX - 1) headY gridSize,
    cellIndex (headX - 2) headY gridSize]

structure Apple where
  position : Option Nat
  pointer : Nat
  deriving DecidableEq

/-- The loop of `nextApplePosition` over what is left of the list. -/
def firstFree (occupied : List Nat) : List Nat → Nat → Apple
  | [], index => ⟨none, index + 1⟩
  | cell :: cells, index =>
      if cell ∈ occupied then firstFree occupied cells (index + 1) else ⟨some cell, index + 1⟩

def nextApplePosition (cells : List Nat) (pointer : Nat) (occupied : List Nat) : Apple :=
  firstFree occupied (cells.drop pointer) pointer

/-- The cell ahead of the head, if there is no wall. -/
def ahead (gridSize : Nat) (direction : Direction) (headIndex : Nat) : Option Nat :=
  let newX : Int := ((headIndex % gridSize : Nat) : Int) + direction.delta.1
  let newY : Int := ((headIndex / gridSize : Nat) : Int) + direction.delta.2
  if newX < 0 ∨ newX ≥ gridSize ∨ newY < 0 ∨ newY ≥ gridSize then none
  else some (cellIndex newX.toNat newY.toNat gridSize)

/-- A move cannot turn the snake back. -/
def effectiveDirection (body : List Nat) (direction move : Direction) : Direction :=
  if body.length > 1 ∧ move = direction.opposite then direction else move

/-! ## The engine of the server -/

structure SimulateSnakeResult where
  success : Bool
  reason : Option String
  applesEaten : Nat
  deriving DecidableEq

def notEnough (applesEaten : Nat) : SimulateSnakeResult :=
  ⟨false, some "Not enough apples were eaten.", applesEaten⟩

def hitWall (applesEaten : Nat) : SimulateSnakeResult :=
  ⟨false, some "The snake hit a wall.", applesEaten⟩

def hitSelf (applesEaten : Nat) : SimulateSnakeResult :=
  ⟨false, some "The snake collided with itself.", applesEaten⟩

/-- The loop over the moves. -/
def simulateMoves (gridSize applesRequired : Nat) (cells : List Nat) (body : List Nat)
    (direction : Direction) (applesEaten : Nat) (apple : Apple) :
    List Direction → SimulateSnakeResult
  | [] => notEnough applesEaten
  | move :: moves =>
      let direction := effectiveDirection body direction move
      match ahead gridSize direction (body.headD 0) with
      | none => hitWall applesEaten
      | some newHead =>
          let bodyWithoutTail := if some newHead = apple.position then body else body.dropLast
          if newHead ∈ bodyWithoutTail then hitSelf applesEaten
          else
            let body := newHead :: bodyWithoutTail
            if some newHead = apple.position then
              if applesEaten + 1 ≥ applesRequired then ⟨true, none, applesEaten + 1⟩
              else
                simulateMoves gridSize applesRequired cells body direction (applesEaten + 1)
                  (nextApplePosition cells apple.pointer body) moves
            else simulateMoves gridSize applesRequired cells body direction applesEaten apple moves

def simulateSnake (seed : UInt32) (gridSize applesRequired : Nat) (moves : List Direction) :
    SimulateSnakeResult :=
  let cells := shuffledCells gridSize seed
  let body := initialBody gridSize
  simulateMoves gridSize applesRequired cells body .R 0 (nextApplePosition cells 0 body) moves

/-! ## The engine of the browser -/

inductive Collision
  | wall
  | self
  deriving DecidableEq

structure GameState where
  body : List Nat
  direction : Direction
  applesEaten : Nat
  applePos : Option Nat
  pointer : Nat
  applesRequired : Nat
  collided : Option Collision
  deriving DecidableEq

def freshState (gridSize applesRequired : Nat) (cells : List Nat) : GameState :=
  let firstApple := nextApplePosition cells 0 (initialBody gridSize)
  { body := initialBody gridSize
    direction := .R
    applesEaten := 0
    applePos := firstApple.position
    pointer := firstApple.pointer
    applesRequired
    collided := none }

/-- The apple behind a step, of which one has been eaten if `willGrow`. -/
def GameState.feed (state : GameState) (cells body : List Nat) (willGrow : Bool) :
    Nat × Option Nat × Nat :=
  if willGrow then
    let applesEaten := state.applesEaten + 1
    if applesEaten < state.applesRequired then
      let next := nextApplePosition cells state.pointer body
      (applesEaten, next.position, next.pointer)
    else (applesEaten, state.applePos, state.pointer)
  else (state.applesEaten, state.applePos, state.pointer)

def stepOnce (gridSize : Nat) (cells : List Nat) (state : GameState) (move : Direction) :
    GameState :=
  let direction := effectiveDirection state.body state.direction move
  match ahead gridSize direction (state.body.headD 0) with
  | none => { state with collided := some .wall }
  | some newHead =>
      let willGrow := decide (some newHead = state.applePos)
      let bodyWithoutTail := if willGrow then state.body else state.body.dropLast
      if newHead ∈ bodyWithoutTail then { state with collided := some .self }
      else
        let body := newHead :: bodyWithoutTail
        let (applesEaten, applePos, pointer) := state.feed cells body willGrow
        { body, direction, applesEaten, applePos, pointer, applesRequired := state.applesRequired,
          collided := none }

/-- The game is over. -/
def GameState.over (state : GameState) : Bool :=
  state.collided.isSome || state.applesEaten ≥ state.applesRequired

def tick (gridSize : Nat) (cells : List Nat) (state : GameState) (move : Direction) : GameState :=
  if state.over then state else stepOnce gridSize cells state move

def outcome (state : GameState) : SimulateSnakeResult :=
  match state.collided with
  | some .wall => hitWall state.applesEaten
  | some .self => hitSelf state.applesEaten
  | none =>
      if state.applesEaten ≥ state.applesRequired then ⟨true, none, state.applesEaten⟩
      else notEnough state.applesEaten

/-! ## The game -/

/-- Two cells next to each other. -/
def Adjacent (gridSize a b : Nat) : Prop :=
  (a % gridSize = b % gridSize ∧
      (a / gridSize + 1 = b / gridSize ∨ b / gridSize + 1 = a / gridSize)) ∨
    (a / gridSize = b / gridSize ∧
      (a % gridSize + 1 = b % gridSize ∨ b % gridSize + 1 = a % gridSize))

structure Body (gridSize : Nat) (s : GameState) : Prop where
  length : s.body.length = 3 + s.applesEaten
  nodup : s.body.Nodup
  board : ∀ c ∈ s.body, c < gridSize * gridSize
  path : s.body.IsChain (Adjacent gridSize)

structure Sound (gridSize : Nat) (s : GameState) : Prop extends Body gridSize s where
  apple : s.applesEaten < s.applesRequired →
    ∃ c, s.applePos = some c ∧ c < gridSize * gridSize ∧ c ∉ s.body

/-- The apple that the move comes to. -/
def GameState.meal (s : GameState) (gridSize : Nat) (move : Direction) : Option Nat :=
  (ahead gridSize (effectiveDirection s.body s.direction move) (s.body.headD 0)).filter fun c =>
    some c = s.applePos

/-- Where the move eats an apple and another one is to come, the list has a cell from the pointer on
that the longer snake leaves free. -/
def Room (gridSize : Nat) (cells : List Nat) (s : GameState) (move : Direction) : Prop :=
  s.over = false → s.applesEaten + 1 < s.applesRequired → ∀ head ∈ s.meal gridSize move,
    ∃ c ∈ cells.drop s.pointer, c ∉ head :: s.body

/-! ## The list of the cells -/

theorem swapCells_perm {cells : List Nat} {i j : Nat} (hi : i < cells.length)
    (hj : j < cells.length) : (swapCells cells i j).Perm cells := by
  rw [swapCells, List.getD_eq_getElem _ _ hi, List.getD_eq_getElem _ _ hj]
  exact List.set_set_perm hi hj

theorem drawIndex_le (draw : UInt32) (index : Nat) : drawIndex draw index ≤ index := by
  have hdraw : draw.toNat < 4294967296 := draw.toNat_lt
  rw [drawIndex, ← Nat.lt_succ_iff, Nat.div_lt_iff_lt_mul (by decide), Nat.mul_comm]
  exact Nat.mul_lt_mul_of_pos_left hdraw (Nat.succ_pos index)

theorem shuffleFrom_perm (index : Nat) (t : UInt32) {cells : List Nat}
    (h : index < cells.length) : (shuffleFrom index t cells).Perm cells := by
  induction index generalizing t cells with
  | zero => exact List.Perm.refl _
  | succ index ih =>
      have hswap := swapCells_perm h
        (Nat.lt_of_le_of_lt (drawIndex_le (mulberry32 t).1 (index + 1)) h)
      have hlength := hswap.length_eq
      refine (ih (mulberry32 t).2 ?_).trans hswap
      change index < (swapCells cells (index + 1) (drawIndex (mulberry32 t).1 (index + 1))).length
      omega

theorem shuffledCells_perm {gridSize : Nat} (hpositive : 0 < gridSize) (seed : UInt32) :
    (shuffledCells gridSize seed).Perm (List.range (gridSize * gridSize)) := by
  have hcells : 0 < gridSize * gridSize := Nat.mul_pos hpositive hpositive
  apply shuffleFrom_perm
  rw [List.length_range]
  omega

theorem firstFree_position (occupied cells : List Nat) (index : Nat) :
    (firstFree occupied cells index).position = cells.find? (· ∉ occupied) := by
  induction cells generalizing index with
  | nil => rfl
  | cons cell cells ih =>
      rw [firstFree]
      by_cases hcell : cell ∈ occupied
      · rw [if_pos hcell, ih, List.find?_cons_of_neg]
        simpa using hcell
      · rw [if_neg hcell, List.find?_cons_of_pos]
        simpa using hcell

/-- An apple is a free cell of the list from the pointer on. -/
theorem nextApplePosition_some {cells occupied : List Nat} {pointer c : Nat}
    (h : (nextApplePosition cells pointer occupied).position = some c) :
    c ∈ cells ∧ c ∉ occupied := by
  rw [nextApplePosition, firstFree_position] at h
  refine ⟨List.mem_of_mem_drop (List.mem_of_find?_eq_some h), ?_⟩
  simpa using List.find?_some h

theorem firstFree_pointer_le (occupied cells : List Nat) (index : Nat) :
    (firstFree occupied cells index).pointer ≤
      index + (cells.filter (· ∈ occupied)).length + 1 := by
  induction cells generalizing index with
  | nil => exact Nat.le_refl _
  | cons cell cells ih =>
      rw [firstFree]
      by_cases hcell : cell ∈ occupied
      · rw [if_pos hcell, List.filter_cons_of_pos (by simpa using hcell), List.length_cons]
        have hnext := ih (index + 1)
        omega
      · rw [if_neg hcell]
        show index + 1 ≤ _
        omega

section Counting

variable {cells occupied : List Nat} (hnodup : cells.Nodup)

include hnodup

/-- The cells that are passed over are on the body. -/
theorem nextApplePosition_pointer_le (occupied : List Nat) (pointer : Nat) :
    (nextApplePosition cells pointer occupied).pointer ≤ pointer + occupied.length + 1 := by
  have hpassed := firstFree_pointer_le occupied (cells.drop pointer) pointer
  have hle : ((cells.drop pointer).filter (· ∈ occupied)).length ≤ occupied.length := by
    have hrest := (hnodup.sublist (List.drop_sublist pointer _)).sublist
      (List.filter_sublist (p := (· ∈ occupied)))
    apply hrest.length_le_of_subset
    intro c hc
    exact of_decide_eq_true (List.mem_filter.mp hc).2
  rw [nextApplePosition]
  omega

theorem exists_free {pointer : Nat} (h : pointer + occupied.length < cells.length) :
    ∃ c ∈ cells.drop pointer, c ∉ occupied := by
  by_contra hfull
  have hsubset : cells.drop pointer ⊆ occupied := by
    intro c hc
    by_contra hnot
    exact hfull ⟨c, hc, hnot⟩
  have hle := (hnodup.sublist (List.drop_sublist ..)).length_le_of_subset hsubset
  rw [List.length_drop] at hle
  omega

end Counting

theorem nextApplePosition_isSome {cells occupied : List Nat} {pointer : Nat} :
    (∃ c, (nextApplePosition cells pointer occupied).position = some c) ↔
      ∃ c ∈ cells.drop pointer, c ∉ occupied := by
  rw [nextApplePosition, firstFree_position, ← Option.isSome_iff_exists, List.find?_isSome]
  simp

/-! ## Moves -/

theorem cellIndex_mod {x gridSize : Nat} (y : Nat) (hx : x < gridSize) :
    cellIndex x y gridSize % gridSize = x := by
  rw [cellIndex, Nat.add_mul_mod_self_right, Nat.mod_eq_of_lt hx]

theorem cellIndex_div {x gridSize : Nat} (y : Nat) (hx : x < gridSize) :
    cellIndex x y gridSize / gridSize = y := by
  rw [cellIndex, Nat.add_mul_div_right _ _ (by omega), Nat.div_eq_of_lt hx, Nat.zero_add]

theorem cellIndex_lt {x y gridSize : Nat} (hx : x < gridSize) (hy : y < gridSize) :
    cellIndex x y gridSize < gridSize * gridSize := by
  have hrow : (y + 1) * gridSize ≤ gridSize * gridSize := Nat.mul_le_mul_right _ hy
  rw [Nat.succ_mul] at hrow
  rw [cellIndex]
  omega

theorem ahead_some {gridSize head next : Nat} {direction : Direction}
    (h : ahead gridSize direction head = some next) :
    next < gridSize * gridSize ∧ Adjacent gridSize next head := by
  rw [ahead] at h
  split at h
  · cases h
  · rename_i hinside
    obtain rfl := Option.some.inj h
    obtain ⟨x, hx⟩ : ∃ x : Nat, ((head % gridSize : Nat) : Int) + direction.delta.1 = x :=
      Int.eq_ofNat_of_zero_le (by omega)
    obtain ⟨y, hy⟩ : ∃ y : Nat, ((head / gridSize : Nat) : Int) + direction.delta.2 = y :=
      Int.eq_ofNat_of_zero_le (by omega)
    have hxlt : x < gridSize := by omega
    have hylt : y < gridSize := by omega
    rw [hx, hy, Int.toNat_natCast, Int.toNat_natCast]
    refine ⟨cellIndex_lt hxlt hylt, ?_⟩
    rw [Adjacent, cellIndex_mod y hxlt, cellIndex_div y hxlt]
    cases direction with
    | U =>
        change _ + (0 : Int) = _ at hx
        change _ + (-1 : Int) = _ at hy
        omega
    | D =>
        change _ + (0 : Int) = _ at hx
        change _ + (1 : Int) = _ at hy
        omega
    | L =>
        change _ + (-1 : Int) = _ at hx
        change _ + (0 : Int) = _ at hy
        omega
    | R =>
        change _ + (1 : Int) = _ at hx
        change _ + (0 : Int) = _ at hy
        omega

theorem meal_eq_some {gridSize head : Nat} {s : GameState} {move : Direction} :
    s.meal gridSize move = some head ↔
      ahead gridSize (effectiveDirection s.body s.direction move) (s.body.headD 0) = some head ∧
        some head = s.applePos := by
  rw [GameState.meal, Option.filter_eq_some_iff, decide_eq_true_iff]

/-- The apple behind a meal. -/
def GameState.nextApple (s : GameState) (cells body : List Nat) : Apple :=
  if s.applesEaten + 1 < s.applesRequired then nextApplePosition cells s.pointer body
  else ⟨s.applePos, s.pointer⟩

theorem feed_true (s : GameState) (cells body : List Nat) :
    s.feed cells body true =
      (s.applesEaten + 1, (s.nextApple cells body).position, (s.nextApple cells body).pointer) := by
  rw [GameState.feed, if_pos rfl, GameState.nextApple]
  dsimp only
  split
  · rfl
  · rfl

/-- What a step can do. -/
theorem stepOnce_cases (gridSize : Nat) (cells : List Nat) (s : GameState) (move : Direction) :
    ((∃ collision, stepOnce gridSize cells s move = { s with collided := some collision }) ∧
        ∀ head ∈ s.meal gridSize move, head ∈ s.body) ∨
      (∃ head, s.meal gridSize move = some head ∧ head ∉ s.body ∧
        stepOnce gridSize cells s move =
          ⟨head :: s.body, effectiveDirection s.body s.direction move, s.applesEaten + 1,
            (s.nextApple cells (head :: s.body)).position,
            (s.nextApple cells (head :: s.body)).pointer, s.applesRequired, none⟩) ∨
      ∃ head, ahead gridSize (effectiveDirection s.body s.direction move) (s.body.headD 0) =
          some head ∧ some head ≠ s.applePos ∧ head ∉ s.body.dropLast ∧
        stepOnce gridSize cells s move =
          { s with
            body := head :: s.body.dropLast
            direction := effectiveDirection s.body s.direction move
            collided := none } := by
  rw [stepOnce]
  dsimp only
  cases hahead : ahead gridSize (effectiveDirection s.body s.direction move) (s.body.headD 0) with
  | none =>
      refine .inl ⟨⟨_, rfl⟩, fun head hmeal => ?_⟩
      rw [Option.mem_def, meal_eq_some, hahead] at hmeal
      cases hmeal.1
  | some head =>
      dsimp only
      by_cases hgrow : some head = s.applePos
      · have hmeal : s.meal gridSize move = some head := meal_eq_some.mpr ⟨hahead, hgrow⟩
        rw [decide_eq_true hgrow, if_pos rfl]
        by_cases hself : head ∈ s.body
        · rw [if_pos hself]
          refine .inl ⟨⟨_, rfl⟩, fun other hother => ?_⟩
          obtain rfl := Option.some.inj (hmeal.symm.trans hother)
          exact hself
        · rw [if_neg hself]
          refine .inr (.inl ⟨head, hmeal, hself, ?_⟩)
          rw [feed_true]
      · rw [decide_eq_false hgrow, if_neg Bool.false_ne_true]
        by_cases hself : head ∈ s.body.dropLast
        · rw [if_pos hself]
          refine .inl ⟨⟨_, rfl⟩, fun other hother => ?_⟩
          obtain rfl := Option.some.inj (hahead.symm.trans (meal_eq_some.mp hother).1)
          exact (List.dropLast_sublist _).subset hself
        · rw [if_neg hself]
          exact .inr (.inr ⟨head, rfl, hgrow, hself, rfl⟩)

/-! ## The body -/

section Game

variable {gridSize : Nat} {cells : List Nat} {s : GameState}

theorem Body.next (h : Body gridSize s) {direction : Direction} {head : Nat}
    (hahead : ahead gridSize direction (s.body.headD 0) = some head) {rest : List Nat}
    (hrest : rest <+: s.body) (hnonempty : rest ≠ []) (hhead : head ∉ rest) :
    (head :: rest).Nodup ∧ (∀ c ∈ head :: rest, c < gridSize * gridSize) ∧
      (head :: rest).IsChain (Adjacent gridSize) := by
  obtain ⟨hboard, hadjacent⟩ := ahead_some hahead
  refine ⟨?_, ?_, ?_⟩
  · exact List.nodup_cons.mpr ⟨hhead, h.nodup.sublist hrest.sublist⟩
  · intro c hc
    rcases List.mem_cons.mp hc with rfl | hc
    · exact hboard
    · exact h.board c (hrest.subset hc)
  · refine List.isChain_cons.mpr ⟨fun c hc => ?_, h.path.prefix hrest⟩
    obtain ⟨more, hmore⟩ := hrest
    cases rest with
    | nil => exact absurd rfl hnonempty
    | cons first rest =>
        obtain rfl := Option.some.inj hc
        rw [← hmore] at hadjacent
        exact hadjacent

theorem Body.step (h : Body gridSize s) (move : Direction) :
    Body gridSize (stepOnce gridSize cells s move) := by
  have hlength := h.length
  rcases stepOnce_cases gridSize cells s move with ⟨⟨collision, heq⟩, -⟩ |
    ⟨head, hmeal, hhead, heq⟩ | ⟨head, hahead, -, hhead, heq⟩
  · rw [heq]
    exact ⟨h.length, h.nodup, h.board, h.path⟩
  · rw [heq]
    have hnonempty : s.body ≠ [] := by
      rintro hnil
      rw [hnil, List.length_nil] at hlength
      omega
    obtain ⟨hnodup, hboard, hpath⟩ :=
      h.next (meal_eq_some.mp hmeal).1 (List.prefix_refl _) hnonempty hhead
    refine ⟨?_, hnodup, hboard, hpath⟩
    change s.body.length + 1 = 3 + (s.applesEaten + 1)
    omega
  · rw [heq]
    have hrest : s.body.dropLast.length = s.body.length - 1 := List.length_dropLast
    have hnonempty : s.body.dropLast ≠ [] := by
      rintro hnil
      rw [hnil, List.length_nil] at hrest
      omega
    obtain ⟨hnodup, hboard, hpath⟩ := h.next hahead (List.dropLast_prefix _) hnonempty hhead
    refine ⟨?_, hnodup, hboard, hpath⟩
    change s.body.dropLast.length + 1 = 3 + s.applesEaten
    omega

theorem Body.tick (h : Body gridSize s) (move : Direction) :
    Body gridSize (tick gridSize cells s move) := by
  rw [Snake.tick]
  split
  · exact h
  · exact h.step move

theorem body_fresh (hsize : 10 ≤ gridSize) (applesRequired : Nat) :
    Body gridSize (freshState gridSize applesRequired cells) := by
  have hcentre : ∀ k ≤ 2, gridSize / 2 - k < gridSize := by
    intro k hk
    omega
  have hrow : gridSize / 2 < gridSize := by omega
  have hadjacent : ∀ x, x + 1 < gridSize → Adjacent gridSize
      (cellIndex (x + 1) (gridSize / 2) gridSize) (cellIndex x (gridSize / 2) gridSize) := by
    intro x hx
    rw [Adjacent, cellIndex_mod _ hx, cellIndex_div _ hx, cellIndex_mod _ (by omega),
      cellIndex_div _ (by omega)]
    omega
  refine ⟨rfl, ?_, ?_, ?_⟩
  · change [_, _, _].Nodup
    simp only [List.nodup_cons, List.mem_cons, List.not_mem_nil, or_false, cellIndex]
    refine ⟨?_, ?_, not_false, List.nodup_nil⟩ <;> omega
  · intro c hc
    change c ∈ [_, _, _] at hc
    simp only [List.mem_cons, List.not_mem_nil, or_false] at hc
    rcases hc with rfl | rfl | rfl
    · exact cellIndex_lt hrow hrow
    · exact cellIndex_lt (hcentre 1 (by omega)) hrow
    · exact cellIndex_lt (hcentre 2 (by omega)) hrow
  · change [cellIndex (gridSize / 2) _ _, cellIndex (gridSize / 2 - 1) _ _,
      cellIndex (gridSize / 2 - 2) _ _].IsChain _
    have hfirst : gridSize / 2 = gridSize / 2 - 1 + 1 := by omega
    have hsecond : gridSize / 2 - 1 = gridSize / 2 - 2 + 1 := by omega
    have hnear := hadjacent (gridSize / 2 - 1) (by omega)
    have hfar := hadjacent (gridSize / 2 - 2) (by omega)
    rw [← hfirst] at hnear
    rw [← hsecond] at hfar
    exact List.isChain_cons_cons.mpr ⟨hnear, List.isChain_cons_cons.mpr
      ⟨hfar, List.isChain_singleton _⟩⟩

/-! ## The apple -/

theorem Sound.tick (h : Sound gridSize s) (hcells : ∀ c ∈ cells, c < gridSize * gridSize)
    {move : Direction} (hroom : Room gridSize cells s move) :
    Sound gridSize (tick gridSize cells s move) := by
  have hbody : Body gridSize (Snake.tick gridSize cells s move) := h.toBody.tick move
  refine ⟨hbody, ?_⟩
  rw [Snake.tick]
  cases hover : s.over with
  | true => exact h.apple
  | false =>
      rw [if_neg Bool.false_ne_true]
      rcases stepOnce_cases gridSize cells s move with ⟨⟨collision, heq⟩, -⟩ |
        ⟨head, hmeal, -, heq⟩ | ⟨head, -, hother, -, heq⟩
      · rw [heq]
        exact h.apple
      · rw [heq]
        intro hmore
        obtain ⟨c, hc⟩ := nextApplePosition_isSome.mpr (hroom hover hmore head hmeal)
        obtain ⟨hmem, hfree⟩ := nextApplePosition_some hc
        refine ⟨c, ?_, hcells c hmem, hfree⟩
        show (s.nextApple cells (head :: s.body)).position = some c
        rw [GameState.nextApple, if_pos hmore]
        exact hc
      · rw [heq]
        intro hmore
        obtain ⟨c, hc, hboard, hfree⟩ := h.apple hmore
        refine ⟨c, hc, hboard, ?_⟩
        intro hmem
        rcases List.mem_cons.mp hmem with rfl | hmem
        · exact hother hc.symm
        · exact hfree ((List.dropLast_sublist _).subset hmem)

/-- Where an apple has been found there was room for it. -/
theorem Sound.room (h : Sound gridSize s) {move : Direction}
    (hnext : Sound gridSize (Snake.tick gridSize cells s move)) : Room gridSize cells s move := by
  intro hover hmore head hmeal
  have happle := hnext.apple
  rw [Snake.tick, hover, if_neg Bool.false_ne_true] at happle
  obtain ⟨hahead, hposition⟩ := meal_eq_some.mp hmeal
  rcases stepOnce_cases gridSize cells s move with ⟨-, hself⟩ |
    ⟨other, hother, -, heq⟩ | ⟨other, hother, hne, -⟩
  · obtain ⟨c, hc, -, hfree⟩ := h.apple (by omega)
    obtain rfl := Option.some.inj (hposition.trans hc)
    exact absurd (hself head hmeal) hfree
  · obtain rfl := Option.some.inj (hmeal.symm.trans hother)
    rw [heq] at happle
    obtain ⟨c, hc, -⟩ := happle hmore
    change (s.nextApple cells (head :: s.body)).position = some c at hc
    rw [GameState.nextApple, if_pos hmore] at hc
    exact nextApplePosition_isSome.mp ⟨c, hc⟩
  · obtain rfl := Option.some.inj (hahead.symm.trans hother)
    exact absurd hposition hne

/-- The first apple always finds a cell. -/
theorem sound_fresh (hsize : 10 ≤ gridSize) (applesRequired : Nat)
    (hcells : cells.Perm (List.range (gridSize * gridSize))) :
    Sound gridSize (freshState gridSize applesRequired cells) := by
  have hbody : Body gridSize (freshState gridSize applesRequired cells) :=
    body_fresh hsize applesRequired
  refine ⟨hbody, fun _ => ?_⟩
  have hboard : 100 ≤ gridSize * gridSize := Nat.mul_le_mul hsize hsize
  have hfree : ∃ c ∈ cells.drop 0, c ∉ initialBody gridSize := by
    apply exists_free (hcells.nodup_iff.mpr List.nodup_range)
    rw [hcells.length_eq, List.length_range]
    show 0 + 3 < _
    omega
  obtain ⟨c, hc⟩ := nextApplePosition_isSome.mpr hfree
  obtain ⟨hmem, hnot⟩ := nextApplePosition_some hc
  exact ⟨c, hc, List.mem_range.mp (hcells.mem_iff.mp hmem), hnot⟩

/-! ## Few apples -/

/-- The pointer is at most the cells that the bodies up to now had, and one for each apple. -/
structure Counted (gridSize applesRequired : Nat) (s : GameState) : Prop
    extends Body gridSize s where
  required : s.applesRequired = applesRequired
  pointer : 2 * s.pointer ≤ (s.applesEaten + 1) * (s.applesEaten + 8)

section Counted

variable {applesRequired : Nat} (hnodup : cells.Nodup)

include hnodup

theorem counted_fresh (hsize : 10 ≤ gridSize) :
    Counted gridSize applesRequired (freshState gridSize applesRequired cells) := by
  refine ⟨body_fresh hsize applesRequired, rfl, ?_⟩
  have hpointer := nextApplePosition_pointer_le hnodup (initialBody gridSize) 0
  change _ ≤ 0 + 3 + 1 at hpointer
  show 2 * (nextApplePosition cells 0 (initialBody gridSize)).pointer ≤ (0 + 1) * (0 + 8)
  omega

theorem Counted.tick (h : Counted gridSize applesRequired s) (move : Direction) :
    Counted gridSize applesRequired (tick gridSize cells s move) := by
  have hbody : Body gridSize (Snake.tick gridSize cells s move) := h.toBody.tick move
  suffices hrest : (Snake.tick gridSize cells s move).applesRequired = applesRequired ∧
      2 * (Snake.tick gridSize cells s move).pointer ≤
        ((Snake.tick gridSize cells s move).applesEaten + 1) *
          ((Snake.tick gridSize cells s move).applesEaten + 8) from
    ⟨hbody, hrest.1, hrest.2⟩
  rw [Snake.tick]
  split
  · exact ⟨h.required, h.pointer⟩
  rcases stepOnce_cases gridSize cells s move with ⟨⟨collision, heq⟩, -⟩ |
    ⟨head, -, -, heq⟩ | ⟨head, -, -, -, heq⟩
  · rw [heq]
    exact ⟨h.required, h.pointer⟩
  · rw [heq]
    refine ⟨h.required, ?_⟩
    have hnext : (s.nextApple cells (head :: s.body)).pointer ≤ s.pointer + (s.applesEaten + 5) := by
      rw [GameState.nextApple]
      split
      · have hle := nextApplePosition_pointer_le hnodup (head :: s.body) s.pointer
        rw [List.length_cons, h.length] at hle
        omega
      · exact Nat.le_add_right _ _
    have hpointer := h.pointer
    show 2 * (s.nextApple cells (head :: s.body)).pointer ≤
      (s.applesEaten + 1 + 1) * (s.applesEaten + 1 + 8)
    simp only [Nat.add_mul, Nat.mul_add] at hpointer ⊢
    omega
  · rw [heq]
    exact ⟨h.required, h.pointer⟩

/-- The board is larger than all that the snake can pass over. -/
theorem Counted.room (h : Counted gridSize applesRequired s)
    (hfew : applesRequired * (applesRequired + 7) ≤ 2 * cells.length) (move : Direction) :
    Room gridSize cells s move := by
  intro _ hmore head _
  apply exists_free hnodup
  have hpointer := h.pointer
  have hbound : (s.applesEaten + 2) * (s.applesEaten + 9) ≤
      applesRequired * (applesRequired + 7) := by
    rw [h.required] at hmore
    exact Nat.mul_le_mul (by omega) (by omega)
  rw [List.length_cons, h.length]
  simp only [Nat.add_mul, Nat.mul_add] at hpointer hbound hfew
  omega

end Counted

/-! ## The two engines -/

theorem foldl_over (hover : s.over = true) (moves : List Direction) :
    moves.foldl (tick gridSize cells) s = s := by
  induction moves with
  | nil => rfl
  | cons move moves ih =>
      rw [List.foldl_cons, Snake.tick, if_pos hover]
      exact ih

theorem outcome_of_open (hopen : s.over = false) : outcome s = notEnough s.applesEaten := by
  rw [GameState.over, Bool.or_eq_false_iff, Option.isSome_eq_false_iff, Option.isNone_iff_eq_none,
    decide_eq_false_iff_not] at hopen
  rw [outcome, hopen.1]
  exact if_neg hopen.2

/-- The replay goes through the states of the browser. -/
theorem simulateMoves_eq (moves : List Direction) (hopen : s.over = false) :
    simulateMoves gridSize s.applesRequired cells s.body s.direction s.applesEaten
        ⟨s.applePos, s.pointer⟩ moves =
      outcome (moves.foldl (tick gridSize cells) s) := by
  induction moves generalizing s with
  | nil => exact (outcome_of_open hopen).symm
  | cons move moves ih =>
      rw [simulateMoves, List.foldl_cons, Snake.tick, hopen, if_neg Bool.false_ne_true, stepOnce]
      dsimp only
      cases ahead gridSize (effectiveDirection s.body s.direction move) (s.body.headD 0) with
      | none =>
          rw [foldl_over rfl]
          rfl
      | some head =>
          dsimp only
          by_cases hgrow : some head = s.applePos
          · rw [if_pos hgrow, decide_eq_true hgrow, if_pos rfl]
            by_cases hself : head ∈ s.body
            · rw [if_pos hself, if_pos hself, foldl_over rfl]
              rfl
            · rw [if_neg hself, if_neg hself, if_pos hgrow, GameState.feed, if_pos rfl]
              dsimp only
              by_cases hlast : s.applesEaten + 1 ≥ s.applesRequired
              · rw [if_pos hlast, if_neg (Nat.not_lt.mpr hlast), foldl_over]
                · rw [outcome]
                  exact (if_pos hlast).symm
                · rw [GameState.over]
                  exact decide_eq_true hlast
              · rw [if_neg hlast, if_pos (Nat.lt_of_not_le hlast)]
                refine ih (s := ⟨head :: s.body, _, s.applesEaten + 1, _, _, s.applesRequired,
                  none⟩) ?_
                rw [GameState.over]
                exact decide_eq_false hlast
          · rw [if_neg hgrow, decide_eq_false hgrow, if_neg Bool.false_ne_true]
            by_cases hself : head ∈ s.body.dropLast
            · rw [if_pos hself, if_pos hself, foldl_over rfl]
              rfl
            · rw [if_neg hself, if_neg hself, if_neg hgrow, GameState.feed,
                if_neg Bool.false_ne_true]
              refine ih (s := ⟨head :: s.body.dropLast, _, s.applesEaten, s.applePos, s.pointer,
                s.applesRequired, none⟩) ?_
              rw [GameState.over, Bool.or_eq_false_iff] at hopen
              rw [GameState.over]
              exact hopen.2

end Game

/-! ## Every configuration -/

theorem integerConfig_ok {config : Entries} {key message : String} {minimum maximum value : Nat}
    (h : integerConfig config key minimum maximum message = .ok value) :
    minimum ≤ value ∧ value ≤ maximum := by
  rw [integerConfig] at h
  split at h
  · rename_i number hnumber
    split at h
    · rename_i hrange
      obtain ⟨hden, hmin, hmax⟩ := hrange
      have hnum : number = (number.num : ℚ) := (Rat.coe_int_num_of_den_eq_one hden).symm
      obtain rfl := Except.ok.inj h
      rw [hnum] at hmin hmax
      have hlow : (minimum : Int) ≤ number.num := by exact_mod_cast hmin
      have hhigh : number.num ≤ (maximum : Int) := by exact_mod_cast hmax
      omega
    · cases h
  · cases h

theorem validateConfig_ok {config : Entries} (h : validateConfig config = .ok ()) :
    ∃ size apples, gridSize config = .ok size ∧ applesRequired config = .ok apples := by
  rw [validateConfig] at h
  cases hsize : gridSize config with
  | error e =>
      rw [hsize] at h
      cases h
  | ok size =>
      cases happles : applesRequired config with
      | error e =>
          rw [hsize, happles] at h
          cases h
      | ok apples => exact ⟨size, apples, rfl, rfl⟩

/-- Every move string comes to the same in the two engines, and in every state on the way the body
is a path of `3 + applesEaten` cells. The apple is a free cell all along where the board is large
enough for the apples, and otherwise just where each meal leaves a free cell in the rest of the
list. -/
theorem snake_replay {config : Entries} (h : validateConfig config = .ok ()) (seed : UInt32)
    (moves : List Direction) : ∃ size apples, gridSize config = .ok size ∧
    applesRequired config = .ok apples ∧
    simulateSnake seed size apples moves =
      outcome (moves.foldl (tick size (shuffledCells size seed))
        (freshState size apples (shuffledCells size seed))) ∧
    Always (tick size (shuffledCells size seed)) (Body size)
      (freshState size apples (shuffledCells size seed)) moves ∧
    (apples * (apples + 7) ≤ 2 * (size * size) →
      Always (tick size (shuffledCells size seed)) (Sound size)
        (freshState size apples (shuffledCells size seed)) moves) ∧
    (Always (tick size (shuffledCells size seed)) (Sound size)
        (freshState size apples (shuffledCells size seed)) moves ↔
      Meets (tick size (shuffledCells size seed)) (Room size (shuffledCells size seed))
        (freshState size apples (shuffledCells size seed)) moves) := by
  obtain ⟨size, apples, hsize, happles⟩ := validateConfig_ok h
  have hten : 10 ≤ size := (integerConfig_ok hsize).1
  have hone : 1 ≤ apples := (integerConfig_ok happles).1
  have hperm := shuffledCells_perm (by omega : 0 < size) seed
  have hcells : ∀ c ∈ shuffledCells size seed, c < size * size :=
    fun c hc => List.mem_range.mp (hperm.mem_iff.mp hc)
  have hnodup : (shuffledCells size seed).Nodup := hperm.nodup_iff.mpr List.nodup_range
  refine ⟨size, apples, hsize, happles, ?_, ?_, ?_, ?_⟩
  · refine simulateMoves_eq (s := freshState size apples (shuffledCells size seed)) moves ?_
    rw [GameState.over]
    exact decide_eq_false (Nat.not_le.mpr hone)
  · exact always_of_meets (fun _ h => h) (fun _ move h _ => h.tick move) (body_fresh hten apples)
      (meets_of_forall (C := fun _ _ => True) (fun _ _ => trivial) _ moves)
  · intro hfew
    refine always_of_meets (I := fun s => Sound size s ∧ Counted size apples s) (fun _ h => h.1)
      ?_ ⟨sound_fresh hten apples hperm, counted_fresh hnodup hten⟩
      (meets_of_forall (C := fun _ _ => True) (fun _ _ => trivial) _ moves)
    rintro s move ⟨hsound, hcounted⟩ -
    refine ⟨hsound.tick hcells (hcounted.room hnodup ?_ move), hcounted.tick hnodup move⟩
    rw [hperm.length_eq, List.length_range]
    exact hfew
  · exact always_iff_meets (fun _ h => h) (fun _ _ h hroom => h.tick hcells hroom)
      (fun _ _ h hnext => h.room hnext) (sound_fresh hten apples hperm) moves

def fieldConfig (size apples : String) : Entries :=
  [("gridSize".toList, .string size.toList), ("applesRequired".toList, .string apples.toList)]

theorem snake_replay_straight : validateConfig (fieldConfig "10" "11") = .ok () ∧
    simulateSnake 6 10 11 [.U, .R] =
      outcome ([.U, .R].foldl (tick 10 (shuffledCells 10 6))
        (freshState 10 11 (shuffledCells 10 6))) ∧
    Always (tick 10 (shuffledCells 10 6)) (Sound 10) (freshState 10 11 (shuffledCells 10 6))
      [.U, .R] := by
  have hvalid : validateConfig (fieldConfig "10" "11") = .ok () := by decide +kernel
  have hten : gridSize (fieldConfig "10" "11") = .ok 10 := by decide +kernel
  have heleven : applesRequired (fieldConfig "10" "11") = .ok 11 := by decide +kernel
  obtain ⟨size, apples, hsize, happles, heq, -, hfew, -⟩ := snake_replay hvalid 6 [.U, .R]
  obtain rfl := Except.ok.inj (hten.symm.trans hsize)
  obtain rfl := Except.ok.inj (heleven.symm.trans happles)
  exact ⟨hvalid, heq, hfew (by decide)⟩

/-- A letter of a move string. -/
def Direction.ofChar? : Char → Option Direction
  | 'U' => some .U
  | 'D' => some .D
  | 'L' => some .L
  | 'R' => some .R
  | _ => none

/-- 386 moves in which the snake covers most of the cells that the next apples would take. -/
@[irreducible] def coveringMoves : List Direction :=
  ["URUURRDDDDLLDDLLLDLUUUUURUULLLDRRRDDDDDD", "RRULUUUULLUURRRDRRULULURRRDDDDRDLLLLLLUU",
    "LLDDLDRDDRRRUUUULLUUUURRDDRRRRRDLLDDDDLL", "DLLLUULURRRRRRRRUUUUULLDLDRRDDLLLLLLLLDD",
    "RDDDRUUURRRRURDDDLDLLLLULLUURURRURRULULU", "URRRDRDDDDDDDLUUULLLLDLDLUUUUUURDDDRRRRR",
    "RRUUURDDDDDDDLULLLUUURUULDLLLDLDDDLDDRRR", "UURRUUUUUULLDDDRDLLUUULLDDDRDDRRRRDRRDRU",
    "URULLURRUULLLDDDLULLUULLUUURRRRRDRRRDDDD", "DDDDLLLLULUUUUULLDDLLUUUUU"].flatMap fun (moves : String) =>
      moves.toList.filterMap Direction.ofChar?

/-- `shuffledCells 10 6` -/
def coveredCells : List Nat :=
  [28, 93, 83, 30, 23, 95, 63, 94, 22, 5, 37, 59, 7, 49, 81, 50, 31, 2, 44, 29,
    12, 27, 77, 24, 61, 47, 76, 82, 26, 8, 9, 58, 40, 48, 42, 17, 86, 91, 62, 57,
    65, 3, 80, 45, 60, 11, 70, 55, 87, 56, 18, 21, 10, 43, 46, 71, 32, 41, 78, 88,
    75, 35, 36, 25, 54, 14, 90, 13, 92, 15, 67, 69, 68, 51, 73, 97, 72, 20, 74, 79,
    16, 33, 39, 53, 66, 38, 4, 1, 34, 84, 96, 89, 85, 98, 6, 99, 19, 64, 0, 52]

def coveringGame (cells : List Nat) : GameState :=
  coveringMoves.foldl (tick 10 cells) (freshState 10 30 cells)

theorem sound_coveringGame {cells : List Nat}
    (h : Always (tick 10 cells) (Sound 10) (freshState 10 30 cells) coveringMoves) :
    Sound 10 (coveringGame cells) := by
  rw [coveringGame]
  exact h.last

/-- With 24 of 30 apples eaten the list is exhausted. -/
theorem list_exhausted : ¬∀ (config : Entries) (seed : UInt32) (moves : List Direction)
    (size apples : Nat), validateConfig config = .ok () → gridSize config = .ok size →
    applesRequired config = .ok apples →
    Always (tick size (shuffledCells size seed)) (Sound size)
      (freshState size apples (shuffledCells size seed)) moves := by
  intro h
  have hvalid : validateConfig (fieldConfig "10" "30") = .ok () := by decide +kernel
  have hsize : gridSize (fieldConfig "10" "30") = .ok 10 := by decide +kernel
  have happles : applesRequired (fieldConfig "10" "30") = .ok 30 := by decide +kernel
  have hall := h (fieldConfig "10" "30") 6 coveringMoves 10 30 hvalid hsize happles
  have hsound := sound_coveringGame hall
  have hcells : shuffledCells 10 6 = coveredCells := by decide +kernel
  rw [hcells] at hsound
  have hlost : ((coveringGame coveredCells).applesEaten, (coveringGame coveredCells).applesRequired,
      (coveringGame coveredCells).applePos) = (24, 30, none) := by
    decide +kernel
  obtain ⟨heaten, hrest⟩ := Prod.mk.inj hlost
  obtain ⟨hrequired, hnone⟩ := Prod.mk.inj hrest
  have hmore : (coveringGame coveredCells).applesEaten <
      (coveringGame coveredCells).applesRequired := by
    rw [heaten, hrequired]
    decide
  obtain ⟨c, hc, -⟩ := hsound.apple hmore
  rw [hnone] at hc
  cases hc

end BurrowGate.Snake
