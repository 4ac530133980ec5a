/-
# Pong

The game of `pong.rs` on the text canvas of `canvas.rs`.  All positions are of type `isize`, so that
a step off the screen is a number and not an overflow; they are cast to `usize` for drawing.
`PongGame::update` moves the paddles by the keys that are held, draws, and then moves the ball.
`PongGame::run` handles the key events that have arrived, updates and looks whether the ball has
left the field; it is a machine here whose inputs are the key events and the updates.

`update_eq_ok_iff` says when an update overflows and what it does if not, as long as the paddles
stay away from the ends of `isize`; in a game all numbers do, and `update_eq` follows.
-/
import SilOS.Risp.Interpret
import SilOS.Screen.Writer

namespace SilOS.Pong

open Lib Screen Risp

/-! ### The canvas -/

/-- `ColorCode::new`. -/
def colorCode (foreground background : UInt8) : UInt8 := background <<< 4 ||| foreground

/-- `Color::Black`. -/
def black : UInt8 := 0

/-- `Color::Cyan`. -/
def cyan : UInt8 := 3

/-- `Color::White`. -/
def white : UInt8 := 15

/-- `TextCanvas::set_char`. -/
def setChar (canvas : Screen.Buffer) (x y : ℕ) (character color : UInt8) :
    Except Fault Screen.Buffer :=
  if x < bufferWidth ∧ y < bufferHeight then canvas.write y x ⟨character, color⟩ else .ok canvas

/-- A blank of `TextCanvas::clear`. -/
def blank : ScreenChar := ⟨0x20, colorCode black black⟩

/-- `TextCanvas::clear`. -/
def clear (canvas : Screen.Buffer) : Except Fault Screen.Buffer :=
  forRange 0 bufferHeight
    (fun canvas row => forRange 0 bufferWidth (fun canvas col => canvas.write row col blank) canvas)
    canvas

/-! ### The game -/

/-- `KeyCode`, as far as the game tells the keys apart. -/
inductive KeyCode where
  | w
  | s
  | o
  | l
  | escape
  | other
deriving DecidableEq

/-- `KeyState`. -/
inductive KeyState where
  | up
  | down
  | singleShot
deriving DecidableEq

/-- `PongGame`. -/
structure PongGame where
  canvas : Screen.Buffer
  ballX : ℤ
  ballY : ℤ
  dx : ℤ
  dy : ℤ
  paddle1Y : ℤ
  paddle2Y : ℤ
  wPressed : Bool
  sPressed : Bool
  upPressed : Bool
  downPressed : Bool

namespace PongGame

/-- `PongGame::new`, on the screen as it is. -/
def new (canvas : Screen.Buffer) : PongGame where
  canvas := canvas
  ballX := 40
  ballY := 12
  dx := 1
  dy := 1
  paddle1Y := 10
  paddle2Y := 10
  wPressed := false
  sPressed := false
  upPressed := false
  downPressed := false

/-- `paddle_height`. -/
abbrev paddleHeight : ℤ := 5

/-- A paddle moved by the keys of its player: up first, then down. -/
def movePaddle (up down : Bool) (paddleY : ℤ) : Except Fault ℤ :=
  let paddleY := if up then saturatingSubI 64 paddleY 1 else paddleY
  if down ∧ paddleY < 24 - paddleHeight then addI 64 paddleY 1 else .ok paddleY

/-- The loop that draws a paddle in the column `x`. -/
def drawPaddle (x : ℕ) (paddleY : ℤ) (canvas : Screen.Buffer) : Except Fault Screen.Buffer :=
  forRange 0 paddleHeight.toNat
    (fun canvas offset => do
      let currentY ← addI 64 paddleY offset
      if 0 ≤ currentY ∧ currentY < 25 then
        setChar canvas x (toUnsigned 64 currentY) 0x7C (colorCode cyan black)
      else return canvas)
    canvas

/-- The ball is in the columns from `lo` to `hi`, `hi` excluded, and in the rows of the paddle. -/
def meets (lo hi paddleY ballX ballY : ℤ) : Except Fault Bool :=
  if lo ≤ ballX ∧ ballX < hi then do
    let first ← subI 64 paddleY 4
    let last ← addI 64 paddleY 4
    return first ≤ ballY ∧ ballY < last
  else return false

/-- A direction that is turned round on a condition. -/
def turnIf (c : Bool) (v : ℤ) : Except Fault ℤ := if c then negI 64 v else .ok v

/-- `PongGame::update`. -/
def update (g : PongGame) : Except Fault PongGame := do
  let paddle1Y ← movePaddle g.wPressed g.sPressed g.paddle1Y
  let paddle2Y ← movePaddle g.upPressed g.downPressed g.paddle2Y
  let canvas ← clear g.canvas
  let canvas ← drawPaddle 2 paddle1Y canvas
  let canvas ← drawPaddle 76 paddle2Y canvas
  let canvas ← setChar canvas (toUnsigned 64 g.ballX) (toUnsigned 64 g.ballY) 0x4F
    (colorCode white black)
  let ballX ← addI 64 g.ballX g.dx
  let ballY ← addI 64 g.ballY g.dy
  let dy ← turnIf (ballY ≤ 0 ∨ 24 ≤ ballY) g.dy
  let hit1 ← meets 0 5 paddle1Y ballX ballY
  let dx ← turnIf (hit1 ∧ g.dx < 0) g.dx
  let hit2 ← meets 76 80 paddle2Y ballX ballY
  let dx ← turnIf (hit2 ∧ 0 < dx) dx
  return { g with
    canvas := canvas, ballX := ballX, ballY := ballY, dx := dx, dy := dy
    paddle1Y := paddle1Y, paddle2Y := paddle2Y }

end PongGame

/-- The game in `PongGame::run`, or what it has returned and the game it left behind. -/
inductive Game where
  | running (g : PongGame)
  | ended (g : PongGame) (result : Success)

/-- What the game reacts to. -/
inductive Input where
  | key (code : KeyCode) (state : KeyState)
  | update

/-- The key held, released, or neither. -/
def held (state : KeyState) (pressed : Bool) : Bool :=
  match state with
  | .down => true
  | .up => false
  | .singleShot => pressed

namespace PongGame

/-- The result of `PongGame::run`, which clears the canvas before. -/
def finish (g : PongGame) (successCode : String) : Except Fault Game := do
  let canvas ← clear g.canvas
  return .ended { g with canvas := canvas } ⟨successCode, true⟩

/-- The handling of a key event in `PongGame::run`. -/
def handleKey (g : PongGame) : KeyCode → KeyState → Except Fault Game
  | .w, state => .ok (.running { g with wPressed := held state g.wPressed })
  | .s, state => .ok (.running { g with sPressed := held state g.sPressed })
  | .o, state => .ok (.running { g with upPressed := held state g.upPressed })
  | .l, state => .ok (.running { g with downPressed := held state g.downPressed })
  | .escape, .down => g.finish "Game Exited"
  | _, _ => .ok (.running g)

/-- A turn of `PongGame::run` after the key events: the update and the checks for a winner. -/
def turn (g : PongGame) : Except Fault Game := do
  let g ← g.update
  if g.ballX < 1 then g.finish "player 2 wins!"
  else if g.ballX > 79 then g.finish "player 1 wins!"
  else return .running g

end PongGame

namespace Game

/-- The game after an input; when it is over, nothing is read any more. -/
def step : Game → Input → Except Fault Game
  | .running g, .key code state => g.handleKey code state
  | .running g, .update => g.turn
  | .ended g result, _ => .ok (.ended g result)

/-- The game as a machine. -/
def machine : Machine Game Input Unit Fault where
  step s i := (s.step i).map fun s => ((), s)

/-- The positions in the game, the last ones if it is over. -/
def state : Game → PongGame
  | .running g => g
  | .ended g _ => g

end Game

/-! ### The parts of an update

The numbers of a game are small: none of them is near the ends of `isize`. -/

/-- The number is one of `isize`. -/
def InIsize (v : ℤ) : Prop := -2 ^ 63 ≤ v ∧ v < 2 ^ 63

/-- The number is far from the ends of `isize`. -/
def Small (v : ℤ) : Prop := -2 ^ 62 < v ∧ v < 2 ^ 62

lemma Small.inIsize {v : ℤ} (h : Small v) : InIsize v := by
  obtain ⟨hlo, hhi⟩ := h
  exact ⟨by omega, by omega⟩

lemma addI_eq_ok_iff {a b x : ℤ} : addI 64 a b = .ok x ↔ InIsize (a + b) ∧ x = a + b :=
  fitI_eq_ok_iff

/-- The canvas after it has been cleared. -/
def cleared : Screen.Buffer := fun _ _ => blank

lemma clear_eq (canvas : Screen.Buffer) : clear canvas = .ok cleared := by
  have hall : canvas.filled blank bufferHeight = cleared := by
    funext i j
    exact if_pos i.isLt
  rw [clear, Screen.Buffer.forRange_filled le_rfl, hall]

/-- The canvas with a character at a position, which may be off the screen. -/
def put (canvas : Screen.Buffer) (x y : ℤ) (c : ScreenChar) : Screen.Buffer := fun i j =>
  if (i.val : ℤ) = y ∧ (j.val : ℤ) = x then c else canvas i j

/-- A number of `isize` that is cast to `usize` is a small number or far off the screen. -/
lemma toUnsigned_eq_iff {v : ℤ} {n : ℕ} (hlo : -2 ^ 63 ≤ v) (hhi : v < 2 ^ 63) (hn : n < 2 ^ 62) :
    v = n ↔ toUnsigned 64 v = n := by
  rw [toUnsigned]
  omega

lemma setChar_eq {canvas : Screen.Buffer} {x y : ℕ} {px py : ℤ}
    (hx : ∀ n : ℕ, n < 80 → (px = n ↔ x = n)) (hy : ∀ n : ℕ, n < 25 → (py = n ↔ y = n))
    (character color : UInt8) :
    setChar canvas x y character color = .ok (put canvas px py ⟨character, color⟩) := by
  have hput : put canvas px py ⟨character, color⟩ = canvas.set y x ⟨character, color⟩ := by
    funext i j
    have hi : (i.val : ℤ) = py ↔ i.val = y := by rw [eq_comm, hy i.val i.isLt, eq_comm]
    have hj : (j.val : ℤ) = px ↔ j.val = x := by rw [eq_comm, hx j.val j.isLt, eq_comm]
    simp only [put, Screen.Buffer.set, hi, hj]
  rw [setChar, hput]
  split_ifs with hin
  · rw [Screen.Buffer.write_eq hin.2 hin.1]
  · congr 1
    funext i j
    rw [Screen.Buffer.set, if_neg]
    rintro ⟨rfl, rfl⟩
    exact hin ⟨j.isLt, i.isLt⟩

lemma setChar_toUnsigned {x y : ℤ} (hx : InIsize x) (hy : InIsize y) (canvas : Screen.Buffer)
    (character color : UInt8) :
    setChar canvas (toUnsigned 64 x) (toUnsigned 64 y) character color =
      .ok (put canvas x y ⟨character, color⟩) := by
  obtain ⟨⟨hxlo, hxhi⟩, hylo, hyhi⟩ := And.intro hx hy
  exact setChar_eq (fun n hn => toUnsigned_eq_iff hxlo hxhi (by omega))
    (fun n hn => toUnsigned_eq_iff hylo hyhi (by omega)) _ _

namespace PongGame

/-- The row of a paddle after it has been moved. -/
def movedTo (up down : Bool) (paddleY : ℤ) : ℤ :=
  let paddleY := if up then paddleY - 1 else paddleY
  if down ∧ paddleY < 19 then paddleY + 1 else paddleY

lemma movePaddle_eq {paddleY : ℤ} (h : Small paddleY) (up down : Bool) :
    movePaddle up down paddleY = .ok (movedTo up down paddleY) := by
  obtain ⟨hlo, hhi⟩ := h
  have hsat : saturatingSubI 64 paddleY 1 = paddleY - 1 := by
    rw [saturatingSubI, min_eq_left (by omega), max_eq_right (by omega)]
  have hlimit : (24 : ℤ) - paddleHeight = 19 := rfl
  simp only [movePaddle, movedTo, hsat, addI, hlimit]
  split_ifs with hup hdown hdown
  · exact fitI_eq_ok (by omega) (by omega)
  · rfl
  · exact fitI_eq_ok (by omega) (by omega)
  · rfl

/-- A bar of a paddle. -/
def bar : ScreenChar := ⟨0x7C, colorCode cyan black⟩

/-- The canvas with the first `n` rows of a paddle. -/
def withBars (canvas : Screen.Buffer) (x : ℕ) (paddleY : ℤ) (n : ℕ) : Screen.Buffer := fun i j =>
  if j.val = x ∧ paddleY ≤ i.val ∧ (i.val : ℤ) < paddleY + n then bar else canvas i j

lemma put_withBars {canvas : Screen.Buffer} {x : ℕ} {paddleY : ℤ} {n : ℕ} :
    put (withBars canvas x paddleY n) x (paddleY + n) bar = withBars canvas x paddleY (n + 1) := by
  funext i j
  simp only [put, withBars, Nat.cast_inj, Nat.cast_add, Nat.cast_one]
  by_cases hj : j.val = x
  · simp only [hj, and_true, true_and]
    split_ifs <;> first | rfl | omega
  · simp only [hj, and_false, false_and, if_false]

/-- A turn of the loop: off the screen there is no cell for the bar. -/
lemma drawPaddle_eq {x : ℕ} {paddleY : ℤ} (h : Small paddleY) (canvas : Screen.Buffer) :
    drawPaddle x paddleY canvas = .ok (withBars canvas x paddleY 5) := by
  obtain ⟨hlo, hhi⟩ := h
  have hstart : withBars canvas x paddleY 0 = canvas := by
    funext i j
    rw [withBars, if_neg (by omega)]
  have hloop := forRange_eq (fun canvas (offset : ℕ) => do
      let currentY ← addI 64 paddleY offset
      if 0 ≤ currentY ∧ currentY < 25 then
        setChar canvas x (toUnsigned 64 currentY) 0x7C (colorCode cyan black)
      else return canvas)
    (withBars canvas x paddleY) (Nat.zero_le 5) fun n _ hn => by
      rw [addI, fitI_eq_ok (by omega) (by omega), ok_bind, ← put_withBars]
      split_ifs with hrow
      · exact setChar_eq (fun _ _ => Nat.cast_inj)
          (fun m hm => toUnsigned_eq_iff (by omega) (by omega) (by omega)) _ _
      · have hoff : put (withBars canvas x paddleY n) x (paddleY + n) bar =
            withBars canvas x paddleY n := by
          funext i j
          have hi : i.val < 25 := i.isLt
          rw [put, if_neg (by omega)]
        rw [hoff]
        rfl
  rw [hstart] at hloop
  exact hloop

/-- The paddle reaches the ball. -/
def Meets (lo hi paddleY ballX ballY : ℤ) : Prop :=
  (lo ≤ ballX ∧ ballX < hi) ∧ paddleY - 4 ≤ ballY ∧ ballY < paddleY + 4

instance (lo hi paddleY ballX ballY : ℤ) : Decidable (Meets lo hi paddleY ballX ballY) :=
  inferInstanceAs (Decidable (_ ∧ _))

lemma meets_eq {lo hi paddleY ballX ballY : ℤ} (h : Small paddleY) :
    meets lo hi paddleY ballX ballY = .ok (decide (Meets lo hi paddleY ballX ballY)) := by
  obtain ⟨hlo, hhi⟩ := h
  rw [meets, subI, addI, fitI_eq_ok (by omega) (by omega), ok_bind,
    fitI_eq_ok (by omega) (by omega), ok_bind]
  split_ifs with hcol
  · simp only [Meets, hcol, and_self, true_and]
    rfl
  · simp only [Meets, hcol, false_and, decide_false]
    rfl

lemma turnIf_eq_ok_iff {c : Bool} {v x : ℤ} :
    turnIf c v = .ok x ↔ (c → InIsize (-v)) ∧ x = if c then -v else v := by
  cases c with
  | true =>
      rw [turnIf, if_pos rfl, if_pos rfl, negI, fitI_eq_ok_iff]
      simp [InIsize]
  | false => simp [turnIf, eq_comm]

/-! ### An update -/

/-- What an update draws. -/
def picture (paddle1Y paddle2Y ballX ballY : ℤ) : Screen.Buffer :=
  put (withBars (withBars cleared 2 paddle1Y 5) 76 paddle2Y 5) ballX ballY
    ⟨0x4F, colorCode white black⟩

/-- The game after an update. -/
def next (g : PongGame) : PongGame :=
  let paddle1Y := movedTo g.wPressed g.sPressed g.paddle1Y
  let paddle2Y := movedTo g.upPressed g.downPressed g.paddle2Y
  let ballX := g.ballX + g.dx
  let ballY := g.ballY + g.dy
  let dx := if Meets 0 5 paddle1Y ballX ballY ∧ g.dx < 0 then -g.dx else g.dx
  { g with
    canvas := picture paddle1Y paddle2Y g.ballX g.ballY
    ballX := ballX
    ballY := ballY
    dx := if Meets 76 80 paddle2Y ballX ballY ∧ 0 < dx then -dx else dx
    dy := if ballY ≤ 0 ∨ 24 ≤ ballY then -g.dy else g.dy
    paddle1Y := paddle1Y
    paddle2Y := paddle2Y }

/-- The ball of the game is at some place of `isize`, and the paddles are far from its ends. -/
structure Steady (g : PongGame) : Prop where
  ballX : InIsize g.ballX
  ballY : InIsize g.ballY
  dx : InIsize g.dx
  dy : InIsize g.dy
  paddle1Y : Small g.paddle1Y
  paddle2Y : Small g.paddle2Y
  moved1 : Small (movedTo g.wPressed g.sPressed g.paddle1Y)
  moved2 : Small (movedTo g.upPressed g.downPressed g.paddle2Y)

/-- Moving the ball does not overflow, and neither does turning it round at a wall. -/
structure Moves (g : PongGame) : Prop where
  ballX : InIsize (g.ballX + g.dx)
  ballY : InIsize (g.ballY + g.dy)
  wall : g.ballY + g.dy ≤ 0 ∨ 24 ≤ g.ballY + g.dy → InIsize (-g.dy)

/-- A ball that is turned round by the left paddle has not come from the end of `isize`. -/
lemma inIsize_neg_of_meets {paddleY x dx y : ℤ} (hx : InIsize x)
    (h : Meets 0 5 paddleY (x + dx) y ∧ dx < 0) : InIsize (-dx) := by
  obtain ⟨-, hhi⟩ := hx
  obtain ⟨⟨⟨hcol, -⟩, -⟩, hdx⟩ := h
  exact ⟨by omega, by omega⟩

lemma inIsize_neg_of_pos {v : ℤ} (h : InIsize v) (hpos : 0 < v) : InIsize (-v) := by
  obtain ⟨-, hhi⟩ := h
  exact ⟨by omega, by omega⟩

/-- **One update**: when it gives a result, and which. -/
theorem update_eq_ok_iff {g g' : PongGame} (h : g.Steady) :
    g.update = .ok g' ↔ g.Moves ∧ g' = g.next := by
  obtain ⟨hx, hy, hdx, hdy, hp1, hp2, hm1, hm2⟩ := h
  rw [update, movePaddle_eq hp1, ok_bind, movePaddle_eq hp2, ok_bind, clear_eq, ok_bind,
    drawPaddle_eq hm1, ok_bind, drawPaddle_eq hm2, ok_bind, setChar_toUnsigned hx hy, ok_bind]
  simp only [bind_eq_ok, addI_eq_ok_iff, turnIf_eq_ok_iff, meets_eq hm1, meets_eq hm2,
    Except.ok.injEq, decide_eq_true_eq, exists_eq_left', and_assoc, exists_and_left, exists_eq_left]
  constructor
  · rintro ⟨hmx, hmy, hwall, -, -, hg'⟩
    exact ⟨⟨hmx, hmy, hwall⟩, (Except.ok.inj hg').symm⟩
  · rintro ⟨⟨hmx, hmy, hwall⟩, rfl⟩
    -- at the paddles nothing overflows
    refine ⟨hmx, hmy, hwall, inIsize_neg_of_meets hx, fun hhit2 => ?_, rfl⟩
    refine inIsize_neg_of_pos ?_ hhit2.2
    split_ifs with hhit1
    · exact inIsize_neg_of_meets hx hhit1
    · exact hdx

/-- The numbers of the game are far from the ends of `isize`, before and after an update. -/
structure Calm (g : PongGame) : Prop where
  ballX : Small g.ballX
  ballY : Small g.ballY
  dx : Small g.dx
  dy : Small g.dy
  paddle1Y : Small g.paddle1Y
  paddle2Y : Small g.paddle2Y
  moved1 : Small (movedTo g.wPressed g.sPressed g.paddle1Y)
  moved2 : Small (movedTo g.upPressed g.downPressed g.paddle2Y)

lemma Calm.steady {g : PongGame} (h : g.Calm) : g.Steady :=
  ⟨h.ballX.inIsize, h.ballY.inIsize, h.dx.inIsize, h.dy.inIsize, h.paddle1Y, h.paddle2Y, h.moved1,
    h.moved2⟩

lemma Calm.moves {g : PongGame} (h : g.Calm) : g.Moves := by
  obtain ⟨⟨hxlo, hxhi⟩, ⟨hylo, hyhi⟩, ⟨hdxlo, hdxhi⟩, ⟨hdylo, hdyhi⟩, -⟩ := h
  exact ⟨⟨by omega, by omega⟩, ⟨by omega, by omega⟩, fun _ => ⟨by omega, by omega⟩⟩

/-- An update in a game. -/
theorem update_eq {g : PongGame} (h : g.Calm) : g.update = .ok g.next :=
  (update_eq_ok_iff h.steady).mpr ⟨h.moves, rfl⟩

end PongGame

end SilOS.Pong
