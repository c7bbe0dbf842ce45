import Distgard.Lib.Loop
import Distgard.Lib.HashMap
import Distgard.Lib.Wave
import Distgard.Vec
import Distgard.Blocks
import Distgard.Light.Depropagate
import Distgard.ChunkSystem
import Distgard.Automata
import Distgard.Light.Lightpass
import Distgard.Generate
import Distgard.Structures
import Distgard.Server
import Distgard.Rebuild
import Distgard.Registry
import Distgard.Attend
import Distgard.Lib.Text
import Distgard.Save
import Distgard.Lifecycle
import Distgard.MeshQueue
import Distgard.Streaming
import Distgard.Edit
import Distgard.Relight
import Distgard.LightStreaming
import Distgard.Inventory
import Distgard.ChestSave
import Distgard.Keybinds
import Distgard.Crafting
import Distgard.CraftOnce
import Distgard.Lib.Bits
import Distgard.DoorInfo
import Distgard.Game
import Distgard.Slots
import Distgard.Items
import Distgard.WholeDoors
import Distgard.Placing
import Distgard.ChestContents
import Distgard.Lib.Flood
import Distgard.FloodFill
import Distgard.Cube
import Distgard.CubeMesh
import Distgard.EditMesh
import Distgard.Light.Implicated
import Distgard.Light.BreadthFirst
import Distgard.LightMesh
import Distgard.Reenter
import Distgard.ServerChests
import Distgard.Framing
import Distgard.Health
import Distgard.Shader
import Distgard.Restart
import Distgard.LightSum
import Distgard.ServerTypes
import Distgard.Quintet.Delivery
import Distgard.Quintet.Connection
import Distgard.Picture
import Distgard.Sessions
import Distgard.Quintet.KnownHosts
import Distgard.Standing
import Distgard.Broadcast
