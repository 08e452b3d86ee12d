import OniroSoc.Audio.RoundTrip
import OniroSoc.Audio.Indexes
import OniroSoc.Audio.Drain
import OniroSoc.Audio.Sessions
import OniroSoc.Launcher.Verified
import OniroSoc.Compositor.Release
import OniroSoc.Compositor.Queues
import OniroSoc.Compositor.Gestures
import OniroSoc.Compositor.Sizes
import OniroSoc.Compositor.Activation
import OniroSoc.Compositor.Presence
import OniroSoc.Session.Visibility
import OniroSoc.Binder.Replies
import OniroSoc.Ril.Answered
import OniroSoc.Ril.Power
import OniroSoc.Camera.Captures
import OniroSoc.Camera.Objects
import OniroSoc.Display.Backlight
import OniroSoc.Display.Mapping
import OniroSoc.Display.Composition
import OniroSoc.Display.Hotplug
import OniroSoc.Display.Deadlock
import OniroSoc.Binder.Malformed
import OniroSoc.Emulator.Vsync
import OniroSoc.Emulator.Layers
import OniroSoc.Emulator.Topology
import OniroSoc.Launcher.Uplink
import OniroSoc.Camera.Host
import OniroSoc.Codec.Hevc
import OniroSoc.Supervisor.StandDown
import OniroSoc.Supervisor.Changes
import OniroSoc.Audio.Fifo
import OniroSoc.Audio.Frames
import OniroSoc.Audio.Notices
import OniroSoc.Binder.Apps
import OniroSoc.Launcher.Relay
import OniroSoc.Session.Tasks
import OniroSoc.Ril.Profiles
import OniroSoc.Camera.Failures
import OniroSoc.Camera.Errors
import OniroSoc.Emulator.Atomic
import OniroSoc.Emulator.Buffers
import OniroSoc.Display.Fences
import OniroSoc.Camera.Settings
import OniroSoc.Camera.Exif
import OniroSoc.Camera.Frames
import OniroSoc.Display.Vblank
import OniroSoc.Emulator.Gem
import OniroSoc.Codec.Convert
import OniroSoc.Sensor.Vdi
import OniroSoc.Launcher.Dhcp
import OniroSoc.Gnss.Reports
import OniroSoc.Audio.Routing
import OniroSoc.App.Provisioner
