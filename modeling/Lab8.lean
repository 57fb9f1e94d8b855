import Lab8.Lib.Clocked
import Lab8.Lib.Word
import Lab8.Lib.Cyclic
import Lab8.Ball
import Lab8.EnemyBall
import Lab8.RandomBall
import Lab8.AIball
import Lab8.Gamestate
import Lab8.VgaController
import Lab8.Game
import Lab8.BallRange
import Lab8.Camera
import Lab8.Walls
import Lab8.Escape
import Lab8.EnemyContact
import Lab8.EnemyField
import Lab8.Food
import Lab8.SizeCopies
import Lab8.FreshStart
import Lab8.Frames
import Lab8.EnemyChase
import Lab8.EnemyCopies
import Lab8.HpiIoIntf
import Lab8.IoHandler
import Lab8.HpiBus
import Lab8.FoodApart
import Lab8.Menu
import Lab8.UsbWait
import Lab8.EnemyPursuit
import Lab8.Keyboard
import Lab8.Speed
import Lab8.AIballField
import Lab8.Lfsr
import Lab8.Mouse
import Lab8.Score
import Lab8.Discs
import Lab8.FoodCopies
import Lab8.Lib.Framing
import Lab8.MouseInterface
import Lab8.Ps2Request
import Lab8.Ps2Retry
import Lab8.ColorMapper
import Lab8.Console
import Lab8.Lib.Port
import Lab8.Picture
import Lab8.Tour
import Lab8.UsbMain
import Lab8.UsbRun
import Lab8.HpiTransactions
import Lab8.Standing
import Lab8.UsbBus
import Lab8.UsbMemory
