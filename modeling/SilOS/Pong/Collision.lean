/-
# The collision test and the drawing of the paddles

`PongGame::update` draws a paddle in the five rows from `paddle_y` on, and turns the ball round in
the rows from `paddle_y - 4` to `paddle_y + 3`.  The two ranges have only four rows in common: the
ball is returned by the four rows above the paddle, where nothing is drawn, and flies through its
last row.
-/
import SilOS.Pong.Rally

namespace SilOS.Pong

open Lib Screen

namespace PongGame

variable {g : PongGame}

/-- All rows of the paddle are rows of the screen. -/
def WhollyVisible (paddleY : ℤ) : Prop := 0 ≤ paddleY ∧ paddleY + paddleHeight ≤ bufferHeight

/-- Both paddles are wholly on the screen; the other numbers are any of `isize`. -/
structure WellPlaced (g : PongGame) : Prop where
  ballX : InIsize g.ballX
  ballY : InIsize g.ballY
  dx : InIsize g.dx
  dy : InIsize g.dy
  paddle1Y : WhollyVisible g.paddle1Y
  paddle2Y : WhollyVisible g.paddle2Y

lemma left_lt_width : 2 < bufferWidth := by decide

lemma right_lt_width : 76 < bufferWidth := by decide

/-- The column of the left paddle, `paddle_x`. -/
def leftColumn : Fin bufferWidth := ⟨2, left_lt_width⟩

/-- The column of the right paddle. -/
def rightColumn : Fin bufferWidth := ⟨76, right_lt_width⟩

/-- The loop that draws the paddle at `paddleY` in the column `x` draws a bar in the row. -/
def DrawnIn (x : Fin bufferWidth) (paddleY row : ℤ) : Prop :=
  ∃ canvas, drawPaddle x paddleY cleared = .ok canvas ∧
    ∃ i : Fin bufferHeight, (i : ℤ) = row ∧ canvas i x = bar

/-- The rows above the first one that is drawn, as far as the collision test reaches, and the last
row of the paddle. -/
def Disputed (paddleY row : ℤ) : Prop :=
  (paddleY - 4 ≤ row ∧ row < max paddleY 0) ∨ row = paddleY + 4

instance (paddleY row : ℤ) : Decidable (Disputed paddleY row) :=
  inferInstanceAs (Decidable (_ ∨ _))

/-! ### One paddle -/

lemma whollyVisible_iff {paddleY : ℤ} : WhollyVisible paddleY ↔ 0 ≤ paddleY ∧ paddleY ≤ 20 := by
  show 0 ≤ paddleY ∧ paddleY + 5 ≤ 25 ↔ _
  omega

/-- A paddle at the top can be moved one row off the screen. -/
lemma WhollyVisible.movedTo_bounds {paddleY : ℤ} (h : WhollyVisible paddleY) (up down : Bool) :
    -1 ≤ movedTo up down paddleY ∧ movedTo up down paddleY ≤ 20 := by
  obtain ⟨hlo, hhi⟩ := whollyVisible_iff.mp h
  simp only [movedTo]
  split_ifs <;> omega

lemma small_of_bounds {paddleY : ℤ} (h : -1 ≤ paddleY ∧ paddleY ≤ 20) : Small paddleY :=
  ⟨by omega, by omega⟩

lemma WhollyVisible.small {paddleY : ℤ} (h : WhollyVisible paddleY) : Small paddleY := by
  obtain ⟨hlo, hhi⟩ := whollyVisible_iff.mp h
  exact small_of_bounds ⟨by omega, hhi⟩

lemma cleared_ne_bar {i : Fin bufferHeight} {j : Fin bufferWidth} : cleared i j ≠ bar := by
  show blank ≠ bar
  decide

lemma drawnIn_iff {x : Fin bufferWidth} {paddleY row : ℤ} (h : -1 ≤ paddleY ∧ paddleY ≤ 20) :
    DrawnIn x paddleY row ↔ (0 ≤ row ∧ row < 25) ∧ paddleY ≤ row ∧ row < paddleY + 5 := by
  have hcell (i : Fin bufferHeight) : withBars cleared x paddleY 5 i x = bar ↔
      paddleY ≤ i ∧ (i : ℤ) < paddleY + 5 := by
    rw [withBars]
    split_ifs with hbar
    · exact iff_of_true rfl hbar.2
    · exact iff_of_false cleared_ne_bar fun hrow => hbar ⟨rfl, hrow⟩
  rw [DrawnIn, drawPaddle_eq (small_of_bounds h)]
  constructor
  · rintro ⟨canvas, hcanvas, i, rfl, hbar⟩
    obtain rfl := Except.ok.inj hcanvas
    have hi : (i : ℕ) < 25 := i.isLt
    exact ⟨⟨by omega, by omega⟩, (hcell i).mp hbar⟩
  · rintro ⟨⟨hlo, hhi⟩, hrow⟩
    obtain ⟨n, rfl⟩ := Int.eq_ofNat_of_zero_le hlo
    have hn : n < 25 := by omega
    exact ⟨_, rfl, ⟨n, hn⟩, rfl, (hcell ⟨n, hn⟩).mpr hrow⟩

lemma drawnIn_row_iff {x : Fin bufferWidth} {paddleY : ℤ} (h : -1 ≤ paddleY ∧ paddleY ≤ 20)
    (i : Fin bufferHeight) : DrawnIn x paddleY i ↔ paddleY ≤ i ∧ (i : ℤ) < paddleY + 5 := by
  have hi : (i : ℕ) < 25 := i.isLt
  rw [drawnIn_iff h]
  omega

/-- The rows in which the paddle turns the ball round are those in which it is drawn, up to the
disputed ones. -/
lemma reached_iff_drawnIn {x : Fin bufferWidth} {paddleY row : ℤ}
    (h : -1 ≤ paddleY ∧ paddleY ≤ 20) :
    ((paddleY - 4 ≤ row ∧ row < paddleY + 4) ↔ DrawnIn x paddleY row) ↔ ¬ Disputed paddleY row := by
  obtain ⟨hlo, hhi⟩ := h
  rw [drawnIn_iff ⟨hlo, hhi⟩, Disputed]
  omega

/-! ### The update -/

lemma WellPlaced.next_paddle1Y (h : g.WellPlaced) :
    -1 ≤ g.next.paddle1Y ∧ g.next.paddle1Y ≤ 20 := h.paddle1Y.movedTo_bounds _ _

lemma WellPlaced.next_paddle2Y (h : g.WellPlaced) :
    -1 ≤ g.next.paddle2Y ∧ g.next.paddle2Y ≤ 20 := h.paddle2Y.movedTo_bounds _ _

/-- The paddles are far from the ends of `isize`, before and after they have been moved. -/
lemma WellPlaced.steady (h : g.WellPlaced) : g.Steady where
  ballX := h.ballX
  ballY := h.ballY
  dx := h.dx
  dy := h.dy
  paddle1Y := h.paddle1Y.small
  paddle2Y := h.paddle2Y.small
  moved1 := small_of_bounds h.next_paddle1Y
  moved2 := small_of_bounds h.next_paddle2Y

/-- Where the ball is not in front of them, the bars on the screen are those of the paddles. -/
lemma picture_eq_bar_iff {paddle1Y paddle2Y ballX ballY : ℤ} {i : Fin bufferHeight}
    {j : Fin bufferWidth} (h : ¬ ((i : ℤ) = ballY ∧ (j : ℤ) = ballX)) :
    picture paddle1Y paddle2Y ballX ballY i j = bar ↔
      (j.val = 76 ∧ paddle2Y ≤ i ∧ (i : ℤ) < paddle2Y + 5) ∨
        (j.val = 2 ∧ paddle1Y ≤ i ∧ (i : ℤ) < paddle1Y + 5) := by
  rw [picture, put, if_neg h, withBars]
  split_ifs with h2
  · exact iff_of_true rfl (.inl h2)
  · rw [withBars]
    split_ifs with h1
    · exact iff_of_true rfl (.inr h1)
    · exact iff_of_false cleared_ne_bar fun hor => hor.elim h2 h1

/-- In the column of a paddle, the bars on the screen are those that its loop has drawn. -/
lemma WellPlaced.canvas_left (h : g.WellPlaced) {i : Fin bufferHeight}
    (hball : ¬ (g.ballY = i ∧ g.ballX = 2)) :
    g.next.canvas i leftColumn = bar ↔ DrawnIn leftColumn g.next.paddle1Y i := by
  have hshown : g.next.canvas i leftColumn = bar ↔
      (2 = 76 ∧ g.next.paddle2Y ≤ i ∧ (i : ℤ) < g.next.paddle2Y + 5) ∨
        (2 = 2 ∧ g.next.paddle1Y ≤ i ∧ (i : ℤ) < g.next.paddle1Y + 5) :=
    picture_eq_bar_iff fun hcell => hball ⟨hcell.1.symm, hcell.2.symm⟩
  rw [hshown, drawnIn_row_iff h.next_paddle1Y]
  simp

lemma WellPlaced.canvas_right (h : g.WellPlaced) {i : Fin bufferHeight}
    (hball : ¬ (g.ballY = i ∧ g.ballX = 76)) :
    g.next.canvas i rightColumn = bar ↔ DrawnIn rightColumn g.next.paddle2Y i := by
  have hshown : g.next.canvas i rightColumn = bar ↔
      (76 = 76 ∧ g.next.paddle2Y ≤ i ∧ (i : ℤ) < g.next.paddle2Y + 5) ∨
        (76 = 2 ∧ g.next.paddle1Y ≤ i ∧ (i : ℤ) < g.next.paddle1Y + 5) :=
    picture_eq_bar_iff fun hcell => hball ⟨hcell.1.symm, hcell.2.symm⟩
  rw [hshown, drawnIn_row_iff h.next_paddle2Y]
  simp

/-- In the columns of the paddle, the ball is turned round in the rows that the paddle reaches. -/
lemma turned_left_iff (hdx : g.dx < 0) (hcol : 0 ≤ g.next.ballX ∧ g.next.ballX < 5) :
    g.next.dx = -g.dx ↔
      g.next.paddle1Y - 4 ≤ g.next.ballY ∧ g.next.ballY < g.next.paddle1Y + 4 := by
  rw [next_dx_of_neg hdx]
  split_ifs with hmeets
  · exact iff_of_true rfl hmeets.2
  · exact iff_of_false (by omega) fun hrow => hmeets ⟨hcol, hrow⟩

lemma turned_right_iff (hdx : 0 < g.dx) (hcol : 76 ≤ g.next.ballX ∧ g.next.ballX < 80) :
    g.next.dx = -g.dx ↔
      g.next.paddle2Y - 4 ≤ g.next.ballY ∧ g.next.ballY < g.next.paddle2Y + 4 := by
  rw [next_dx_of_pos hdx]
  split_ifs with hmeets
  · exact iff_of_true rfl hmeets.2
  · exact iff_of_false (by omega) fun hrow => hmeets ⟨hcol, hrow⟩

/-- **The collision test and the drawing.**  For every state with both paddles wholly on the screen:
an update gives a result exactly if moving the ball does not overflow, and then the screen shows the
bars of the paddles in the rows in which they were drawn, wherever the ball is not in front of them.
A ball that arrives at a paddle is turned round exactly if the paddle was drawn in its new row, if
and only if this row is not disputed: it is none of the rows above the paddle that the collision
test reaches, and not the last row of the paddle. -/
theorem collision_matches_drawing_iff (h : g.WellPlaced) :
    ((∃ g', g.update = .ok g') ↔ g.Moves) ∧
    ∀ g', g.update = .ok g' →
      (∀ i : Fin bufferHeight,
        (¬ (g.ballY = i ∧ g.ballX = 2) →
          (g'.canvas i leftColumn = bar ↔ DrawnIn leftColumn g'.paddle1Y i)) ∧
        (¬ (g.ballY = i ∧ g.ballX = 76) →
          (g'.canvas i rightColumn = bar ↔ DrawnIn rightColumn g'.paddle2Y i))) ∧
      (g.dx < 0 → 0 ≤ g'.ballX ∧ g'.ballX < 5 →
        ((g'.dx = -g.dx ↔ DrawnIn leftColumn g'.paddle1Y g'.ballY) ↔
          ¬ Disputed (movedTo g.wPressed g.sPressed g.paddle1Y) (g.ballY + g.dy))) ∧
      (0 < g.dx → 76 ≤ g'.ballX ∧ g'.ballX < 80 →
        ((g'.dx = -g.dx ↔ DrawnIn rightColumn g'.paddle2Y g'.ballY) ↔
          ¬ Disputed (movedTo g.upPressed g.downPressed g.paddle2Y) (g.ballY + g.dy))) := by
  refine ⟨⟨?_, fun hmoves => ⟨g.next, (update_eq_ok_iff h.steady).mpr ⟨hmoves, rfl⟩⟩⟩, ?_⟩
  · rintro ⟨g', hg'⟩
    exact ((update_eq_ok_iff h.steady).mp hg').1
  · intro g' hg'
    obtain ⟨-, rfl⟩ := (update_eq_ok_iff h.steady).mp hg'
    refine ⟨fun i => ⟨h.canvas_left, h.canvas_right⟩, fun hdx hcol => ?_, fun hdx hcol => ?_⟩
    · rw [turned_left_iff hdx hcol]
      exact reached_iff_drawnIn h.next_paddle1Y
    · rw [turned_right_iff hdx hcol]
      exact reached_iff_drawnIn h.next_paddle2Y

/-- A ball that flies to the left and is about to arrive at the middle of the paddle. -/
def arriving : PongGame := { new cleared with ballX := 5, ballY := 11, dx := -1 }

/-- The ball is turned round in a row in which the paddle was drawn. -/
theorem collision_matches_drawing_iff_arriving :
    ∃ g', arriving.update = .ok g' ∧ g'.dx = 1 ∧
      (g'.dx = -arriving.dx ↔ DrawnIn leftColumn g'.paddle1Y g'.ballY) := by
  have hplaced : arriving.WellPlaced := by
    constructor <;> exact ⟨by decide, by decide⟩
  have hmoves : arriving.Moves :=
    ⟨⟨by decide, by decide⟩, ⟨by decide, by decide⟩, fun _ => ⟨by decide, by decide⟩⟩
  obtain ⟨-, hall⟩ := collision_matches_drawing_iff hplaced
  have hupdate : arriving.update = .ok arriving.next :=
    (update_eq_ok_iff hplaced.steady).mpr ⟨hmoves, rfl⟩
  obtain ⟨-, hleft, -⟩ := hall _ hupdate
  exact ⟨_, hupdate, by decide, (hleft (by decide) (by decide)).mpr (by decide)⟩

/-- A game in which player 2 has pressed O after thirty updates. -/
def late : PongGame := { next^[30] (new cleared) with upPressed := true }

end PongGame

open PongGame

/-- Player 2 presses O after thirty updates.  Six updates later the right paddle is drawn in the
rows 4 to 8, and the ball arrives there in row 0 and is turned round. -/
theorem ball_returned_above_paddle :
    ∃ os g g', Game.machine.run (.running (new cleared))
        (List.replicate 30 .update ++ .key .o .down :: List.replicate 5 .update) =
          .ok (os, .running g) ∧
      g.WellPlaced ∧ 0 < g.dx ∧ g.update = .ok g' ∧ g'.ballX = 76 ∧ g'.dx = -g.dx ∧
      ¬ DrawnIn rightColumn g'.paddle2Y g'.ballY := by
  have hfield : ∀ k < 30, 1 ≤ (next^[k + 1] (new cleared)).ballX ∧
      (next^[k + 1] (new cleared)).ballX ≤ 79 := by decide +kernel
  have hkey : Game.machine.step (.running (next^[30] (new cleared))) (.key .o .down) =
      .ok ((), .running late) := rfl
  have hlate : late.Rally :=
    (rally_iterate (rally_new cleared) 30 hfield).withKeys false false true false
  have hfield' : ∀ k < 5, 1 ≤ (next^[k + 1] late).ballX ∧ (next^[k + 1] late).ballX ≤ 79 := by
    decide +kernel
  have hrally := rally_iterate hlate 5 hfield'
  have hrun : Game.machine.run (.running (new cleared))
      (List.replicate 30 .update ++ .key .o .down :: List.replicate 5 .update) =
        .ok (List.replicate 36 (), .running (next^[5] late)) := by
    rw [Game.machine.run_append (run_updates (rally_new cleared) 30 hfield),
      Game.machine.run_cons_of_step hkey, run_updates hlate 5 hfield']
    rfl
  have hplaced : (next^[5] late).WellPlaced := by
    constructor <;> exact ⟨by decide +kernel, by decide +kernel⟩
  refine ⟨_, _, _, hrun, hplaced, by decide +kernel, update_eq hrally.calm, by decide +kernel,
    by decide +kernel, ?_⟩
  rw [drawnIn_iff hplaced.next_paddle2Y]
  decide +kernel

end SilOS.Pong
