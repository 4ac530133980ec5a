/-
# The ball and the paddles over a whole game

The ball stays on the field: its row is tied to its direction at the two walls.  The paddles do not
stay on the screen.  A paddle stops at the bottom, but `saturating_sub` on a signed number does not
stop it at the top.  It cannot leave by more than the ball takes to come back, though: the ball is
only returned by a paddle that is near the screen, and the game ends if it is not returned.  So the
numbers of a game stay small, and no update overflows.
-/
import SilOS.Pong.Game

namespace SilOS.Pong

open Lib Screen Risp

namespace PongGame

variable {g : PongGame}

/-- The number of updates in which the ball can be at the left paddle again, at most. -/
def due1 (g : PongGame) : ℤ := if g.dx = 1 then 160 - g.ballX else g.ballX

/-- The number of updates in which the ball can be at the right paddle again, at most. -/
def due2 (g : PongGame) : ℤ := if g.dx = 1 then 80 - g.ballX else 80 + g.ballX

/-- What holds at the start of every update. -/
structure Rally (g : PongGame) : Prop where
  dx : g.dx = 1 ∨ g.dx = -1
  dy : g.dy = 1 ∨ g.dy = -1
  ballX : 1 ≤ g.ballX ∧ g.ballX ≤ 79
  ballY : 0 ≤ g.ballY ∧ g.ballY ≤ 24
  top : g.ballY = 0 → g.dy = 1
  bottom : g.ballY = 24 → g.dy = -1
  paddle1Y : g.due1 - 163 ≤ g.paddle1Y ∧ g.paddle1Y ≤ 19
  paddle2Y : g.due2 - 163 ≤ g.paddle2Y ∧ g.paddle2Y ≤ 19

lemma rally_new (canvas : Screen.Buffer) : (new canvas).Rally where
  dx := .inl rfl
  dy := .inl rfl
  ballX := by simp [new]
  ballY := by simp [new]
  top := by simp [new]
  bottom := by simp [new]
  paddle1Y := by simp [new, due1]
  paddle2Y := by simp [new, due2]

/-- The invariant does not depend on the keys that are held. -/
lemma Rally.withKeys (h : g.Rally) (w s up down : Bool) :
    ({ g with wPressed := w, sPressed := s, upPressed := up, downPressed := down } :
      PongGame).Rally :=
  ⟨h.dx, h.dy, h.ballX, h.ballY, h.top, h.bottom, h.paddle1Y, h.paddle2Y⟩

/-! ### One update -/

lemma movedTo_bounds {paddleY : ℤ} (h : paddleY ≤ 19) (up down : Bool) :
    paddleY - 1 ≤ movedTo up down paddleY ∧ movedTo up down paddleY ≤ 19 := by
  simp only [movedTo]
  split_ifs <;> omega

lemma Rally.due_bounds (h : g.Rally) : 1 ≤ g.due1 ∧ 1 ≤ g.due2 := by
  obtain ⟨hlo, hhi⟩ := h.ballX
  rw [due1, due2]
  split_ifs <;> omega

lemma Rally.calm (h : g.Rally) : g.Calm := by
  obtain ⟨hdue1, hdue2⟩ := h.due_bounds
  have hx := h.ballX
  have hy := h.ballY
  have hdx := h.dx
  have hdy := h.dy
  have hp1 := h.paddle1Y
  have hp2 := h.paddle2Y
  have hm1 := movedTo_bounds hp1.2 g.wPressed g.sPressed
  have hm2 := movedTo_bounds hp2.2 g.upPressed g.downPressed
  constructor <;> exact ⟨by omega, by omega⟩

/-- The right paddle comes after the left one, with the direction that the left one has left. -/
lemma next_dx_of_left {dx : ℤ}
    (h : (if Meets 0 5 g.next.paddle1Y g.next.ballX g.next.ballY ∧ g.dx < 0 then -g.dx else g.dx) =
      dx) :
    g.next.dx =
      if Meets 76 80 g.next.paddle2Y g.next.ballX g.next.ballY ∧ 0 < dx then -dx else dx := by
  subst h
  rfl

/-- A ball that flies to the left is turned round by the left paddle only. -/
lemma next_dx_of_neg (h : g.dx < 0) :
    g.next.dx =
      if Meets 0 5 g.next.paddle1Y g.next.ballX g.next.ballY then -g.dx else g.dx := by
  split_ifs with hmeets
  · -- so far to the left the other paddle is not reached
    have hfar : ¬ Meets 76 80 g.next.paddle2Y g.next.ballX g.next.ballY := by
      rintro ⟨⟨hlo, -⟩, -⟩
      have := hmeets.1.2
      omega
    rw [next_dx_of_left (if_pos ⟨hmeets, h⟩), if_neg fun hand => hfar hand.1]
  · rw [next_dx_of_left (if_neg fun hand => hmeets hand.1), if_neg fun hand => h.not_gt hand.2]

lemma next_dx_of_pos (h : 0 < g.dx) :
    g.next.dx =
      if Meets 76 80 g.next.paddle2Y g.next.ballX g.next.ballY then -g.dx else g.dx := by
  rw [next_dx_of_left (if_neg fun hand => h.not_gt hand.2)]
  simp only [h, and_true]

/-- The ball turns round at a paddle that reaches it, and nowhere else. -/
lemma Rally.next_dx (h : g.Rally) :
    g.next.dx = g.dx ∨
    (g.dx = -1 ∧ g.next.dx = 1 ∧ Meets 0 5 g.next.paddle1Y g.next.ballX g.next.ballY) ∨
    (g.dx = 1 ∧ g.next.dx = -1 ∧ Meets 76 80 g.next.paddle2Y g.next.ballX g.next.ballY) := by
  rcases h.dx with hdx | hdx
  · rw [next_dx_of_pos (by omega), hdx]
    split_ifs with hmeets
    · exact .inr (.inr ⟨rfl, rfl, hmeets⟩)
    · exact .inl rfl
  · rw [next_dx_of_neg (by omega), hdx]
    split_ifs with hmeets
    · exact .inr (.inl ⟨rfl, rfl, hmeets⟩)
    · exact .inl rfl

lemma next_ballX : g.next.ballX = g.ballX + g.dx := rfl

lemma next_ballY : g.next.ballY = g.ballY + g.dy := rfl

lemma Rally.next_ballY_bounds (h : g.Rally) : 0 ≤ g.next.ballY ∧ g.next.ballY ≤ 24 := by
  obtain ⟨hlo, hhi⟩ := h.ballY
  have htop := h.top
  have hbottom := h.bottom
  rw [next_ballY]
  rcases h.dy with hdy | hdy <;> omega

lemma next_dy :
    g.next.dy = if g.next.ballY ≤ 0 ∨ 24 ≤ g.next.ballY then -g.dy else g.dy := rfl

/-- The ball is one update nearer, or it has just been returned by a paddle that is near the
screen. -/
lemma Rally.next_due1 (h : g.Rally) (hfield : 1 ≤ g.next.ballX ∧ g.next.ballX ≤ 79) :
    g.next.due1 - 163 ≤ g.next.paddle1Y := by
  have hmoved : g.paddle1Y - 1 ≤ g.next.paddle1Y :=
    (movedTo_bounds h.paddle1Y.2 g.wPressed g.sPressed).1
  have hpaddle := h.paddle1Y.1
  have hdx := h.dx
  have hrow := h.next_ballY_bounds.1
  have hx : g.next.ballX = g.ballX + g.dx := rfl
  rw [due1] at hpaddle ⊢
  rcases h.next_dx with hkeep | ⟨hold, hnew, ⟨-, hcol⟩, hmeets⟩ | ⟨hold, hnew, -⟩
  · rw [hkeep]
    split_ifs at hpaddle ⊢ <;> omega
  · rw [if_pos hnew]
    omega
  · rw [if_pos hold] at hpaddle
    rw [if_neg (by omega)]
    omega

lemma Rally.next_due2 (h : g.Rally) (hfield : 1 ≤ g.next.ballX ∧ g.next.ballX ≤ 79) :
    g.next.due2 - 163 ≤ g.next.paddle2Y := by
  have hmoved : g.paddle2Y - 1 ≤ g.next.paddle2Y :=
    (movedTo_bounds h.paddle2Y.2 g.upPressed g.downPressed).1
  have hpaddle := h.paddle2Y.1
  have hdx := h.dx
  have hrow := h.next_ballY_bounds.1
  have hx : g.next.ballX = g.ballX + g.dx := rfl
  rw [due2] at hpaddle ⊢
  rcases h.next_dx with hkeep | ⟨hold, hnew, -⟩ | ⟨hold, hnew, ⟨hcol, -⟩, -, hmeets⟩
  · rw [hkeep]
    split_ifs at hpaddle ⊢ <;> omega
  · rw [if_neg (by omega)] at hpaddle
    rw [if_pos hnew]
    omega
  · rw [if_neg (by omega)]
    omega

/-- While the ball is on the field, an update keeps the invariant. -/
lemma Rally.next (h : g.Rally) (hfield : 1 ≤ g.next.ballX ∧ g.next.ballX ≤ 79) :
    g.next.Rally where
  dx := by
    rcases h.next_dx with hdx | ⟨-, hdx, -⟩ | ⟨-, hdx, -⟩
    · exact hdx ▸ h.dx
    · exact .inl hdx
    · exact .inr hdx
  dy := by
    rw [next_dy]
    rcases h.dy with hdy | hdy <;> split_ifs <;> omega
  ballX := hfield
  ballY := h.next_ballY_bounds
  top htop := by
    have hrow := h.ballY
    rw [next_dy, if_pos (.inl htop.le)]
    rw [next_ballY] at htop
    rcases h.dy with hdy | hdy <;> omega
  bottom hbottom := by
    have hrow := h.ballY
    rw [next_dy, if_pos (.inr hbottom.ge)]
    rw [next_ballY] at hbottom
    rcases h.dy with hdy | hdy <;> omega
  paddle1Y := ⟨h.next_due1 hfield, (movedTo_bounds h.paddle1Y.2 _ _).2⟩
  paddle2Y := ⟨h.next_due2 hfield, (movedTo_bounds h.paddle2Y.2 _ _).2⟩

end PongGame

/-! ### A whole game -/

namespace Game

open PongGame

/-- The invariant of a game that is not over. -/
def InPlay : Game → Prop
  | .running g => g.Rally
  | .ended _ _ => True

lemma finish_eq (g : PongGame) (successCode : String) :
    g.finish successCode = .ok (.ended { g with canvas := cleared } ⟨successCode, true⟩) := by
  rw [finish, clear_eq, ok_bind]
  rfl

/-- A turn: the update, and the end of the game if the ball has left the field. -/
lemma turn_eq {g : PongGame} (h : g.Rally) :
    g.turn = .ok (
      if g.next.ballX < 1 then .ended { g.next with canvas := cleared } ⟨"player 2 wins!", true⟩
      else if 79 < g.next.ballX then
        .ended { g.next with canvas := cleared } ⟨"player 1 wins!", true⟩
      else .running g.next) := by
  rw [turn, update_eq h.calm, ok_bind, finish_eq, finish_eq]
  split_ifs <;> rfl

/-- Only the keys that are held change with a key event. -/
lemma handleKey_cases (g : PongGame) (code : KeyCode) (state : KeyState) :
    (∃ g', g.handleKey code state = .ok (.running g') ∧
      g' = { g with
        wPressed := g'.wPressed, sPressed := g'.sPressed
        upPressed := g'.upPressed, downPressed := g'.downPressed }) ∨
    g.handleKey code state = .ok (.ended { g with canvas := cleared } ⟨"Game Exited", true⟩) := by
  cases code with
  | escape =>
      cases state with
      | down => exact .inr (finish_eq g _)
      | up => exact .inl ⟨g, rfl, rfl⟩
      | singleShot => exact .inl ⟨g, rfl, rfl⟩
  | other => exact .inl ⟨g, rfl, rfl⟩
  | w => exact .inl ⟨_, rfl, rfl⟩
  | s => exact .inl ⟨_, rfl, rfl⟩
  | o => exact .inl ⟨_, rfl, rfl⟩
  | l => exact .inl ⟨_, rfl, rfl⟩

lemma step_eq_ok {s s' : Game} {i : Input} {o : Unit} :
    machine.step s i = .ok (o, s') ↔ s.step i = .ok s' := by
  simp only [machine]
  rw [map_eq_ok]
  constructor
  · rintro ⟨s₁, hs₁, heq⟩
    obtain rfl := (Prod.mk.inj heq).2
    exact hs₁
  · exact fun h => ⟨s', h, rfl⟩

/-- Every step of a game gives a result, and the invariant holds as long as it is not over. -/
lemma InPlay.step {s : Game} (h : s.InPlay) (i : Input) :
    ∃ o s₁, machine.step s i = .ok (o, s₁) ∧ s₁.InPlay := by
  suffices hstep : ∃ s₁, s.step i = .ok s₁ ∧ s₁.InPlay by
    obtain ⟨s₁, hs₁, hplay⟩ := hstep
    exact ⟨(), s₁, step_eq_ok.mpr hs₁, hplay⟩
  cases s with
  | ended g result => exact ⟨_, rfl, trivial⟩
  | running g =>
      have hrally : g.Rally := h
      cases i with
      | key code state =>
          rcases handleKey_cases g code state with ⟨g', hkey, hg'⟩ | hkey
          · refine ⟨_, hkey, ?_⟩
            rw [InPlay, hg']
            exact hrally.withKeys _ _ _ _
          · exact ⟨_, hkey, trivial⟩
      | update =>
          refine ⟨_, turn_eq hrally, ?_⟩
          split_ifs with hleft hright
          · trivial
          · trivial
          · exact hrally.next ⟨not_lt.mp hleft, not_lt.mp hright⟩

end Game

open PongGame

/-- The ball as it is drawn. -/
def ballCell : ScreenChar := ⟨0x4F, colorCode white black⟩

/-- The ball is drawn where it is. -/
lemma PongGame.Rally.canvas_ball {g : PongGame} (h : g.Rally) :
    ∃ (i : Fin bufferHeight) (j : Fin bufferWidth), (i : ℤ) = g.ballY ∧ (j : ℤ) = g.ballX ∧
      g.next.canvas i j = ballCell := by
  obtain ⟨hxlo, hxhi⟩ := h.ballX
  obtain ⟨hylo, hyhi⟩ := h.ballY
  obtain ⟨x, hx⟩ := Int.eq_ofNat_of_zero_le (by omega : 0 ≤ g.ballX)
  obtain ⟨y, hy⟩ := Int.eq_ofNat_of_zero_le hylo
  have hy25 : y < 25 := by omega
  have hx80 : x < 80 := by omega
  refine ⟨⟨y, hy25⟩, ⟨x, hx80⟩, hy.symm, hx.symm, ?_⟩
  exact if_pos ⟨hy.symm, hx.symm⟩

/-- **The ball stays in play.**  Every sequence of key events and updates gives a result.  As long
as the game is not over, the ball moves by one column and one row in every update and is on the
screen, so that it is drawn and its position is cast to `usize` without a change. -/
theorem ball_in_play (canvas : Screen.Buffer) (inputs : List Input) :
    ∃ os s, Game.machine.run (.running (new canvas)) inputs = .ok (os, s) ∧
      ∀ g, s = .running g →
        (|g.dx| = 1 ∧ |g.dy| = 1) ∧
        (1 ≤ g.ballX ∧ g.ballX ≤ 79) ∧ (0 ≤ g.ballY ∧ g.ballY ≤ 24) ∧
        (toUnsigned 64 g.ballX : ℤ) = g.ballX ∧ (toUnsigned 64 g.ballY : ℤ) = g.ballY ∧
        ∃ g', g.update = .ok g' ∧ |g'.ballX - g.ballX| = 1 ∧
          ∃ (i : Fin bufferHeight) (j : Fin bufferWidth), (i : ℤ) = g.ballY ∧ (j : ℤ) = g.ballX ∧
            g'.canvas i j = ballCell := by
  obtain ⟨os, s, hrun, hplay⟩ := Game.machine.run_invariant
    (fun s i hs _ => Game.InPlay.step hs i) (s := .running (new canvas)) (rally_new canvas)
    (Game.machine.along_true _ inputs)
  refine ⟨os, s, hrun, ?_⟩
  rintro g rfl
  have hrally : g.Rally := hplay
  have habs : ∀ v : ℤ, v = 1 ∨ v = -1 → |v| = 1 := by
    rintro v (rfl | rfl) <;> rfl
  have hx := hrally.ballX
  have hy := hrally.ballY
  refine ⟨⟨habs _ hrally.dx, habs _ hrally.dy⟩, hx, hy, ?_, ?_, g.next, update_eq hrally.calm, ?_,
    hrally.canvas_ball⟩
  · rw [toUnsigned]
    omega
  · rw [toUnsigned]
    omega
  · rw [next_ballX, add_sub_cancel_left]
    exact habs _ hrally.dx

/-! ### The paddles -/

/-- Both paddles are in the rows in which they are drawn as a whole. -/
def PongGame.PaddlesOnScreen (g : PongGame) : Prop :=
  (0 ≤ g.paddle1Y ∧ g.paddle1Y ≤ 19) ∧ 0 ≤ g.paddle2Y ∧ g.paddle2Y ≤ 19

/-- In an update, no paddle is at the top with only its key for moving up held. -/
def Game.NoPush : Game → Input → Prop
  | .running g, .update =>
      ¬ (g.paddle1Y = 0 ∧ g.wPressed ∧ ¬ g.sPressed) ∧
      ¬ (g.paddle2Y = 0 ∧ g.upPressed ∧ ¬ g.downPressed)
  | _, _ => True

/-- With both keys held, a paddle at the top goes up and down again. -/
lemma movedTo_onScreen_iff {paddleY : ℤ} (h : 0 ≤ paddleY ∧ paddleY ≤ 19) (up down : Bool) :
    (0 ≤ movedTo up down paddleY ∧ movedTo up down paddleY ≤ 19) ↔
      ¬ (paddleY = 0 ∧ up ∧ ¬ down) := by
  obtain ⟨hlo, hhi⟩ := h
  cases up <;> cases down <;> grind [movedTo]

/-- The paddles after a turn are those of the update, whether or not the game is over then. -/
lemma paddlesOnScreen_turn {g : PongGame} {s : Game} (h : g.Rally) (hturn : g.turn = .ok s) :
    s.state.PaddlesOnScreen ↔ g.next.PaddlesOnScreen := by
  rw [Game.turn_eq h, Except.ok.injEq] at hturn
  subst hturn
  split_ifs <;> rfl

/-- A step keeps the paddles on the screen exactly if none of them is pushed off at the top. -/
lemma Game.paddlesOnScreen_step {s s₁ : Game} {i : Input} {o : Unit} (hplay : s.InPlay)
    (hscreen : s.state.PaddlesOnScreen) (hstep : Game.machine.step s i = .ok (o, s₁)) :
    s₁.state.PaddlesOnScreen ↔ s.NoPush i := by
  rw [step_eq_ok] at hstep
  cases s with
  | ended g result =>
      obtain rfl := Except.ok.inj hstep
      exact iff_of_true hscreen trivial
  | running g =>
      cases i with
      | key code state =>
          refine iff_of_true ?_ trivial
          rcases handleKey_cases g code state with ⟨g', hkey, hg'⟩ | hkey
          · obtain rfl := Except.ok.inj (hkey.symm.trans hstep)
            rw [Game.state, hg']
            exact hscreen
          · obtain rfl := Except.ok.inj (hkey.symm.trans hstep)
            exact hscreen
      | update =>
          rw [paddlesOnScreen_turn hplay hstep]
          exact and_congr (movedTo_onScreen_iff hscreen.1 _ _) (movedTo_onScreen_iff hscreen.2 _ _)

/-- The cell shows a bar of a paddle, or the ball in front of it. -/
def ShowsBar (c : ScreenChar) : Prop := c = bar ∨ c = ballCell

lemma showsBar_picture {paddle1Y paddle2Y ballX ballY : ℤ} {i : Fin bufferHeight}
    {j : Fin bufferWidth}
    (h : withBars (withBars cleared 2 paddle1Y 5) 76 paddle2Y 5 i j = bar) :
    ShowsBar (picture paddle1Y paddle2Y ballX ballY i j) := by
  rw [picture, put]
  split_ifs
  · exact .inr rfl
  · exact .inl h

/-- All five rows of both paddles have been drawn. -/
def PongGame.PaddlesDrawn (g : PongGame) : Prop :=
  ∀ k : ℕ, k < 5 →
    (∃ i : Fin bufferHeight, (i : ℤ) = g.paddle1Y + k ∧ ShowsBar (g.canvas i ⟨2, by decide⟩)) ∧
    ∃ i : Fin bufferHeight, (i : ℤ) = g.paddle2Y + k ∧ ShowsBar (g.canvas i ⟨76, by decide⟩)

lemma PongGame.paddlesDrawn_next {g : PongGame} (h : g.next.PaddlesOnScreen) :
    g.next.PaddlesDrawn := by
  intro k hk
  obtain ⟨⟨hlo1, hhi1⟩, hlo2, hhi2⟩ := h
  obtain ⟨y₁, hy₁⟩ := Int.eq_ofNat_of_zero_le (by omega : 0 ≤ g.next.paddle1Y + k)
  obtain ⟨y₂, hy₂⟩ := Int.eq_ofNat_of_zero_le (by omega : 0 ≤ g.next.paddle2Y + k)
  have hlt₁ : y₁ < 25 := by omega
  have hlt₂ : y₂ < 25 := by omega
  refine ⟨⟨⟨y₁, hlt₁⟩, hy₁.symm, showsBar_picture ?_⟩,
    ⟨⟨y₂, hlt₂⟩, hy₂.symm, showsBar_picture ?_⟩⟩
  · have hrow : g.next.paddle1Y ≤ (y₁ : ℤ) ∧ (y₁ : ℤ) < g.next.paddle1Y + (5 : ℕ) := by omega
    exact (if_neg (by simp)).trans (if_pos ⟨rfl, hrow⟩)
  · have hrow : g.next.paddle2Y ≤ (y₂ : ℤ) ∧ (y₂ : ℤ) < g.next.paddle2Y + (5 : ℕ) := by omega
    exact if_pos ⟨rfl, hrow⟩

/-- **When the paddles stay on the screen.**  In a game, both paddles are on the screen in all
states exactly if in no update a paddle is at the top with only its key for moving up held.  An
update after which they are on the screen has drawn all five rows of both. -/
theorem paddles_on_screen_iff (canvas : Screen.Buffer) (inputs : List Input) :
    (Game.machine.Stays (fun s => s.state.PaddlesOnScreen) (.running (new canvas)) inputs ↔
      Game.machine.Along Game.NoPush (.running (new canvas)) inputs) ∧
    ∀ g : PongGame, g.Rally →
      ∃ g', g.update = .ok g' ∧ (g'.PaddlesOnScreen → g'.PaddlesDrawn) := by
  have hplay : Game.InPlay (.running (new canvas)) := rally_new canvas
  have hscreen : (Game.running (new canvas)).state.PaddlesOnScreen := by
    simp [Game.state, PaddlesOnScreen, new]
  refine ⟨?_, fun g hg => ⟨g.next, update_eq hg.calm, g.paddlesDrawn_next⟩⟩
  exact Game.machine.stays_iff_along_of_invariant (J := Game.InPlay) (fun s i hs => hs.step i)
    (fun s i o s₁ hplay hscreen hstep => Game.paddlesOnScreen_step hplay hscreen hstep)
    hplay hscreen inputs

lemma rally_iterate {g : PongGame} (h : g.Rally) (n : ℕ)
    (hfield : ∀ k < n, 1 ≤ (next^[k + 1] g).ballX ∧ (next^[k + 1] g).ballX ≤ 79) :
    (next^[n] g).Rally := by
  induction n generalizing g with
  | zero => exact h
  | succ n ih =>
      exact ih (h.next (hfield 0 n.succ_pos)) fun k hk => hfield (k + 1) (Nat.succ_lt_succ hk)

/-- Updates without a key event between them, while the ball stays on the field. -/
lemma run_updates {g : PongGame} (h : g.Rally) (n : ℕ)
    (hfield : ∀ k < n, 1 ≤ (next^[k + 1] g).ballX ∧ (next^[k + 1] g).ballX ≤ 79) :
    Game.machine.run (.running g) (List.replicate n .update) =
      .ok (List.replicate n (), .running (next^[n] g)) := by
  induction n generalizing g with
  | zero => rfl
  | succ n ih =>
      obtain ⟨hleft, hright⟩ : 1 ≤ g.next.ballX ∧ g.next.ballX ≤ 79 := hfield 0 n.succ_pos
      have hstep : Game.machine.step (.running g) .update = .ok ((), .running g.next) := by
        rw [Game.step_eq_ok]
        refine (Game.turn_eq h).trans ?_
        rw [if_neg (not_lt.mpr hleft), if_neg (not_lt.mpr hright)]
      have hrest := ih (h.next ⟨hleft, hright⟩) fun k hk => hfield (k + 1) (Nat.succ_lt_succ hk)
      rw [List.replicate_succ, Game.machine.run_cons_of_step hstep, hrest]
      rfl

/-- Player 1 holds W from the start: after eleven updates the first paddle is in row `-1`. -/
theorem paddle_leaves_screen :
    ∃ os g, Game.machine.run (.running (new cleared))
        (.key .w .down :: List.replicate 11 .update) = .ok (os, .running g) ∧
      g.paddle1Y = -1 ∧ ¬ g.PaddlesOnScreen := by
  have hkey : Game.machine.step (.running (new cleared)) (.key .w .down) =
      .ok ((), .running { new cleared with wPressed := true }) := rfl
  have hrally : ({ new cleared with wPressed := true } : PongGame).Rally :=
    (rally_new cleared).withKeys true false false false
  have hrun := run_updates hrally 11 (by decide)
  have hrow : (next^[11] { new cleared with wPressed := true }).paddle1Y = -1 := by decide
  refine ⟨_, _, by rw [Game.machine.run_cons_of_step hkey, hrun], hrow, fun hscreen => ?_⟩
  exact absurd hscreen.1.1 (by rw [hrow]; decide)

end SilOS.Pong
